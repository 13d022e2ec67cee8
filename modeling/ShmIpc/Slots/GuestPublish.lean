import ShmIpc.Slots.GuestSystem

/-!
A response on a guest slot and the request its processor has taken. On guest slots
every processor writes `busy`, so the state does not say whose claim it is: when a
slow handler outlives the lease, the slot is reclaimed, a new request is published
and another processor takes it, the first one finds `busy` again and its answer
passes the publish lock on the wrong transaction. This is excluded when no request
is taken while another processor is still to lock for its answer.
-/

namespace ShmIpc.Slots

open Library

variable {Tid Pid : Type}

/-- What can happen to the transaction that a guest slot carries. -/
inductive SlotEvent (Tid Pid : Type)
  | claimed (t : Tid)
  | published (t : Tid)
  | reclaimed (t : Tid)
  | taken (p : Pid)
  deriving DecidableEq

def guestEvent (s : Slot) (t : Tid) : GuestPc → Option (SlotEvent Tid Pid)
  | .claiming _ .casFree => if s.state = .free then some (.claimed t) else none
  | .claiming _ (.casState current) => if s.state = current then some (.claimed t) else none
  | .reclaiming (.casState observed) => if s.state = observed then some (.reclaimed t) else none
  | .sending _ (.storeReqReady _) => some (.published t)
  | _ => none

def recordEvents (s : GuestSystem Tid Pid) (a : GuestAction Tid Pid) (_ : GuestSystem Tid Pid)
    (h : List (SlotEvent Tid Pid)) : List (SlotEvent Tid Pid) :=
  match a with
  | .guest t (.advance _) => (guestEvent s.slot t (s.guest t)).toList ++ h
  | .processor p (.advance _) =>
    if s.processor p = .claim ∧ s.slot.state = .reqReady then .taken p :: h else h
  | _ => h

/-- Nothing has happened to the slot's transaction since the processor took it. -/
def CarriesTaken (h : List (SlotEvent Tid Pid)) (p : Pid) : Prop := h.head? = some (.taken p)

/-- The next action of the processor is a `LockForPublish` that succeeds. -/
def LockSucceeds (s : GuestSystem Tid Pid) (p : Pid) : Prop :=
  (∃ writes, s.processor p = .lock writes) ∧ s.slot.state = .busy

/-- No processor takes a request while another one is between its own claim and its
`LockForPublish`. -/
def TakesAlone (s : GuestSystem Tid Pid) (a : GuestAction Tid Pid) : Prop :=
  ∀ p now, a = .processor p (.advance now) → s.processor p = .claim → s.slot.state = .reqReady →
    ∀ q, q ≠ p → (s.processor q).served = true → (s.processor q).locked = true

/-- No reclaimer frees a slot that is locked for its answer, and no sender stores a
request over it. -/
def LeavesLocked (s : GuestSystem Tid Pid) (a : GuestAction Tid Pid) : Prop :=
  s.slot.state = .done → ∀ t now, a = .guest t (.advance now) →
    s.guest t ≠ .reclaiming (.casState .done) ∧
      ∀ call seq, s.guest t ≠ .sending call (.storeReqReady seq)

/-- A processor with a claim that finds `busy` finds its own claim. -/
def TakenBusy (s : GuestSystem Tid Pid) (h : List (SlotEvent Tid Pid)) : Prop :=
  ∀ p, (s.processor p).served = true → (s.processor p).locked = false →
    s.slot.state = .busy → CarriesTaken h p

def TakenLocked (s : GuestSystem Tid Pid) (h : List (SlotEvent Tid Pid)) : Prop :=
  ∀ p, (s.processor p).locked = true → s.slot.state = .done ∧ CarriesTaken h p

/-- The actions by which a goroutine can move a locked slot. -/
def GuestPc.Disturbs : GuestPc → Prop
  | .claiming _ (.casState .done) | .reclaiming (.casState .done)
  | .sending _ (.storeReqReady _) => True
  | _ => False

/-- What an action of a goroutine means for the transaction: it leaves the state and
the transaction alone, or it moves the slot to a state that no processor writes. -/
inductive GuestEffect (Pid : Type) (s : Slot) (t : Tid) (pc : GuestPc) (s' : Slot) : Prop
  | leaves (hstate : s'.state = s.state)
      (hevent : (guestEvent s t pc : Option (SlotEvent Tid Pid)) = none)
  | moves (hbusy : s'.state ≠ .busy) (hdone : s.state = .done → pc.Disturbs)

theorem claim_effect (Pid : Type) (now : Nat) (s : Slot) (t : Tid) (call : GuestCall)
    (pc : ClaimPc) :
    GuestEffect Pid s t (.claiming call pc) (Go.tryClaimGuestSlot.step now s pc).1 := by
  cases pc with
  | loadState g =>
    simp only [ClaimRules.step]
    split
    · exact .leaves rfl rfl
    · split
      · exact .leaves rfl rfl
      · exact .leaves rfl rfl
  | loadActiveWait | casGen =>
    simp only [ClaimRules.step]
    split
    · exact .leaves rfl rfl
    · exact .leaves rfl rfl
  | casFree =>
    simp only [ClaimRules.step]
    split
    case isTrue hfree =>
      refine .moves (by intro h; cases h) ?_
      intro hdone
      rw [hfree] at hdone
      cases hdone
    case isFalse hfree => exact .leaves rfl (if_neg hfree)
  | casState current =>
    simp only [ClaimRules.step]
    split
    case isTrue hcurrent =>
      refine .moves (by intro h; cases h) ?_
      intro hdone
      rw [← hcurrent, hdone]
      trivial
    case isFalse hcurrent => exact .leaves rfl (if_neg hcurrent)
  | bumpGen | storeLease => exact .leaves rfl rfl

theorem reclaim_effect (Pid : Type) (now : Nat) (s : Slot) (t : Tid) (pc : ReclaimPc) :
    GuestEffect Pid s t (.reclaiming pc) (reclaimStep now s pc).1 := by
  cases pc with
  | loadState | loadLease | readClock | reloadLease | casGen =>
    simp only [reclaimStep]
    split
    · exact .leaves rfl rfl
    · exact .leaves rfl rfl
  | casState observed =>
    simp only [reclaimStep]
    split
    case isTrue hobserved =>
      refine .moves (by intro h; cases h) ?_
      intro hdone
      rw [← hobserved, hdone]
      trivial
    case isFalse hobserved => exact .leaves rfl (if_neg hobserved)

theorem send_effect (Pid : Type) (config : GuestConfig) (now : Nat) (s : Slot) (t : Tid)
    (call : GuestCall) (pc : GuestSendPc) :
    GuestEffect Pid s t (.sending call pc) (guestSendStep config now s call pc).1 := by
  have hswap : ∀ st st' : SlotState, st ≠ .done → st' ≠ .busy →
      (∀ seq, pc ≠ .storeReqReady seq) →
      GuestEffect Pid s t (.sending call pc) (if s.state = st then { s with state := st' } else s) := by
    intro st st' hst hst' hpc
    split
    case isTrue hs =>
      refine .moves hst' ?_
      intro hdone
      exact absurd (hs.symm.trans hdone) hst
    case isFalse =>
      refine .leaves rfl ?_
      cases pc with
      | storeReqReady seq => exact absurd rfl (hpc seq)
      | _ => rfl
  cases pc with
  | storeReqReady seq => exact .moves (by intro h; cases h) (fun _ => trivial)
  | refuse =>
    exact hswap .guestBusy .free (by intro h; cases h) (by intro h; cases h)
      (by intro _ h; cases h)
  | consume seq =>
    simp only [guestSendStep]
    split
    case isTrue hs =>
      refine .moves (by intro h; cases h) ?_
      intro hdone
      rw [hs] at hdone
      cases hdone
    case isFalse => exact .leaves rfl rfl
  | release fast result =>
    cases fast with
    | true =>
      exact hswap .respReady .free (by intro h; cases h) (by intro h; cases h)
        (by intro _ h; cases h)
    | false =>
      exact hswap .guestBusy .free (by intro h; cases h) (by intro h; cases h)
        (by intro _ h; cases h)
  | checkSize | waiting | checkSeq | checkType =>
    simp only [guestSendStep]
    split
    · exact .leaves rfl rfl
    · exact .leaves rfl rfl
  | _ => exact .leaves rfl rfl

theorem guestStep_effect (Pid : Type) {config : GuestConfig} {s s' : Slot} {pc pc' : GuestPc}
    {move : GuestMove} (t : Tid) (h : guestStep config s pc move = some (s', pc')) :
    GuestEffect Pid s t pc s' := by
  revert h
  fun_cases guestStep config s pc move with
  | case1 | case2 | case3 | case8 => intro h; cases h; exact .leaves rfl rfl
  | case4 call pc now r => intro h; cases h; exact claim_effect Pid now s t call pc
  | case5 pc now r => intro h; cases h; exact reclaim_effect Pid now s t pc
  | case6 call pc now r => intro h; cases h; exact send_effect Pid config now s t call pc
  | case7 | case9 => intro h; cases h

theorem GuestPc.Disturbs.guarded {config : GuestConfig} {s s' : Slot} {pc pc' : GuestPc}
    {move : GuestMove} (hdisturbs : pc.Disturbs)
    (hlawful : pc.standing.Lawful Go.tryClaimGuestSlot)
    (h : guestStep config s pc move = some (s', pc')) :
    (∃ now, move = .advance now) ∧ (pc = .reclaiming (.casState .done) ∨
      ∃ call seq, pc = .sending call (.storeReqReady seq)) := by
  cases pc with
  | idle => cases hdisturbs
  | claiming call pc =>
    cases pc with
    | casState current =>
      cases current with
      | done => cases hlawful
      | _ => cases hdisturbs
    | _ => cases hdisturbs
  | reclaiming pc =>
    cases pc with
    | casState observed =>
      cases observed with
      | done =>
        refine ⟨?_, .inl rfl⟩
        cases move with
        | advance now => exact ⟨now, rfl⟩
        | _ => cases h
      | _ => cases hdisturbs
    | _ => cases hdisturbs
  | sending call pc =>
    cases pc with
    | storeReqReady seq =>
      refine ⟨?_, .inr ⟨call, seq, rfl⟩⟩
      cases move with
      | advance now => exact ⟨now, rfl⟩
      | _ => cases h
    | _ => cases hdisturbs

theorem recordEvents_guest {s s' : GuestSystem Tid Pid} {t : Tid} {move : GuestMove}
    {h : List (SlotEvent Tid Pid)}
    (hevent : (guestEvent s.slot t (s.guest t) : Option (SlotEvent Tid Pid)) = none) :
    recordEvents s (.guest t move) s' h = h := by
  cases move with
  | advance now =>
    simp only [recordEvents, hevent]
    rfl
  | _ => rfl

theorem takenBusy_initial {start : GuestSystem Tid Pid} (hstart : start.Initial) :
    TakenBusy start [] := by
  intro p hserved
  rw [hstart.scanning p] at hserved
  cases hserved

/-- The invariant of runs that leave a locked slot alone. -/
structure Locking (s : GuestSystem Tid Pid) (h : List (SlotEvent Tid Pid)) : Prop where
  lawful : ∀ t, (s.guest t).standing.Lawful Go.tryClaimGuestSlot
  busy : TakenBusy s h
  locked : TakenLocked s h

theorem locking_initial {start : GuestSystem Tid Pid} (hstart : start.Initial) :
    Locking start [] := by
  refine ⟨?_, takenBusy_initial hstart, ?_⟩
  · intro t
    rw [hstart.idle t]
    trivial
  · intro p hlocked
    rw [hstart.scanning p] at hlocked
    cases hlocked

variable [DecidableEq Tid] [DecidableEq Pid]

theorem takenBusy_guest {config : GuestConfig} {s s' : GuestSystem Tid Pid} {t : Tid}
    {move : GuestMove} {h : List (SlotEvent Tid Pid)} (hinv : TakenBusy s h)
    (hstep : s.step config (.guest t move) = some s') :
    TakenBusy s' (recordEvents s (.guest t move) s' h) := by
  obtain ⟨slot', pc', hguest, rfl⟩ := GuestSystem.step_guest hstep
  intro p hserved hlocked hbusy
  cases guestStep_effect Pid t hguest with
  | leaves hstate hevent =>
    rw [recordEvents_guest hevent]
    exact hinv p hserved hlocked (hstate.symm.trans hbusy)
  | moves hne => exact absurd hbusy hne

theorem takenLocked_guest {config : GuestConfig} {s s' : GuestSystem Tid Pid} {t : Tid}
    {move : GuestMove} {h : List (SlotEvent Tid Pid)} (hinv : TakenLocked s h)
    (hlawful : (s.guest t).standing.Lawful Go.tryClaimGuestSlot)
    (hguard : LeavesLocked s (.guest t move))
    (hstep : s.step config (.guest t move) = some s') :
    TakenLocked s' (recordEvents s (.guest t move) s' h) := by
  obtain ⟨slot', pc', hguest, rfl⟩ := GuestSystem.step_guest hstep
  intro p hlocked
  obtain ⟨hdone, hcarries⟩ := hinv p hlocked
  cases guestStep_effect Pid t hguest with
  | leaves hstate hevent =>
    rw [recordEvents_guest hevent]
    exact ⟨hstate.trans hdone, hcarries⟩
  | moves _ hdisturbs =>
    obtain ⟨⟨now, rfl⟩, hpc⟩ := (hdisturbs hdone).guarded hlawful hguest
    obtain ⟨hreclaim, hpublish⟩ := hguard hdone t now rfl
    cases hpc with
    | inl hpc => exact absurd hpc hreclaim
    | inr hpc =>
      obtain ⟨call, seq, hpc⟩ := hpc
      exact absurd hpc (hpublish call seq)

theorem advances_of_claim {config : GuestConfig} {s s' : Slot} {pc' : ProcessorPc}
    {move : ProcessorMove} (h : processorStep config s .claim move = some (s', pc')) :
    ∃ now, move = .advance now := by
  cases move with
  | advance now => exact ⟨now, rfl⟩
  | _ => cases h

theorem recordEvents_processor {config : GuestConfig} {s s' : GuestSystem Tid Pid} {p : Pid}
    {move : ProcessorMove} (h : List (SlotEvent Tid Pid))
    (hstep : s.step config (.processor p move) = some s') :
    recordEvents s (.processor p move) s' h =
      if s.processor p = .claim ∧ s.slot.state = .reqReady then .taken p :: h else h := by
  obtain ⟨slot', pc', hprocessor, rfl⟩ := GuestSystem.step_processor hstep
  cases move with
  | advance now => rfl
  | _ =>
    refine (if_neg ?_).symm
    rintro ⟨hpc, _⟩
    rw [hpc] at hprocessor
    obtain ⟨now, hmove⟩ := advances_of_claim hprocessor
    cases hmove

theorem recordEvents_of_state_ne {config : GuestConfig} {s s' : GuestSystem Tid Pid} {p : Pid}
    {move : ProcessorMove} (h : List (SlotEvent Tid Pid))
    (hstep : s.step config (.processor p move) = some s') (hstate : s.slot.state ≠ .reqReady) :
    recordEvents s (.processor p move) s' h = h := by
  rw [recordEvents_processor h hstep]
  exact if_neg fun htakes => hstate htakes.2

theorem takenBusy_self {config : GuestConfig} {s s' : GuestSystem Tid Pid} {p : Pid}
    {move : ProcessorMove} {h : List (SlotEvent Tid Pid)} (hinv : TakenBusy s h)
    (hstep : s.step config (.processor p move) = some s')
    (hserved : (s'.processor p).served = true) (hlocked : (s'.processor p).locked = false)
    (hbusy : s'.slot.state = .busy) :
    CarriesTaken (recordEvents s (.processor p move) s' h) p := by
  obtain ⟨slot', pc', hprocessor, hs'⟩ := GuestSystem.step_processor hstep
  have hself : s'.processor p = pc' := by rw [hs']; exact Function.update_self ..
  have hslot : s'.slot = slot' := by rw [hs']
  rw [hself] at hserved hlocked
  rw [hslot] at hbusy
  have hchange := processorStep_change hprocessor
  generalize hpc : s.processor p = pc at hchange
  cases hchange with
  | quiet _ _ _ hstate _ _ hkept =>
    obtain ⟨hserved₀, hlocked₀⟩ := hkept hserved
    have hbusy₀ := hstate.symm.trans hbusy
    rw [recordEvents_of_state_ne h hstep (by rw [hbusy₀]; nofun)]
    rw [← hpc] at hserved₀ hlocked₀
    exact hinv p hserved₀ (hlocked₀.symm.trans hlocked) hbusy₀
  | tick => cases hserved
  | claim _ hstate =>
    rw [recordEvents_processor h hstep, if_pos ⟨hpc, hstate⟩]
    rfl
  | lock => cases hlocked
  | publish => cases hserved

theorem takenBusy_other {config : GuestConfig} {s s' : GuestSystem Tid Pid} {p q : Pid}
    {move : ProcessorMove} {h : List (SlotEvent Tid Pid)} (hinv : TakenBusy s h)
    (hguard : TakesAlone s (.processor p move))
    (hstep : s.step config (.processor p move) = some s') (hq : q ≠ p)
    (hserved : (s.processor q).served = true) (hlocked : (s.processor q).locked = false)
    (hbusy : s'.slot.state = .busy) :
    CarriesTaken (recordEvents s (.processor p move) s' h) q := by
  obtain ⟨slot', pc', hprocessor, hs'⟩ := GuestSystem.step_processor hstep
  have hslot : s'.slot = slot' := by rw [hs']
  rw [hslot] at hbusy
  have hstays : s.slot.state = .busy →
      CarriesTaken (recordEvents s (.processor p move) s' h) q := by
    intro hbusy₀
    rw [recordEvents_of_state_ne h hstep (by rw [hbusy₀]; nofun)]
    exact hinv q hserved hlocked hbusy₀
  have hchange := processorStep_change hprocessor
  generalize hpc : s.processor p = pc at hchange hprocessor
  cases hchange with
  | quiet _ _ _ hstate => exact hstays (hstate.symm.trans hbusy)
  | tick => exact hstays hbusy
  | claim _ hstate =>
    obtain ⟨now, rfl⟩ := advances_of_claim hprocessor
    have hlocked' := hguard p now rfl hpc hstate q hq hserved
    rw [hlocked] at hlocked'
    cases hlocked'
  | lock | publish => cases hbusy

theorem processor_of_ne {config : GuestConfig} {s s' : GuestSystem Tid Pid} {p q : Pid}
    {move : ProcessorMove} (hstep : s.step config (.processor p move) = some s') (hq : q ≠ p) :
    s'.processor q = s.processor q := by
  obtain ⟨slot', pc', _, rfl⟩ := GuestSystem.step_processor hstep
  exact Function.update_of_ne hq ..

theorem takenBusy_processor {config : GuestConfig} {s s' : GuestSystem Tid Pid} {p : Pid}
    {move : ProcessorMove} {h : List (SlotEvent Tid Pid)} (hinv : TakenBusy s h)
    (hguard : TakesAlone s (.processor p move))
    (hstep : s.step config (.processor p move) = some s') :
    TakenBusy s' (recordEvents s (.processor p move) s' h) := by
  intro q hserved hlocked hbusy
  by_cases hq : q = p
  · rw [hq] at hserved hlocked ⊢
    exact takenBusy_self hinv hstep hserved hlocked hbusy
  · rw [processor_of_ne hstep hq] at hserved hlocked
    exact takenBusy_other hinv hguard hstep hq hserved hlocked hbusy

theorem takenLocked_self {config : GuestConfig} {s s' : GuestSystem Tid Pid} {p : Pid}
    {move : ProcessorMove} {h : List (SlotEvent Tid Pid)} (hbusy : TakenBusy s h)
    (hinv : TakenLocked s h) (hstep : s.step config (.processor p move) = some s')
    (hlocked : (s'.processor p).locked = true) :
    s'.slot.state = .done ∧ CarriesTaken (recordEvents s (.processor p move) s' h) p := by
  obtain ⟨slot', pc', hprocessor, hs'⟩ := GuestSystem.step_processor hstep
  have hself : s'.processor p = pc' := by rw [hs']; exact Function.update_self ..
  have hslot : s'.slot = slot' := by rw [hs']
  rw [hself] at hlocked
  rw [hslot]
  have hchange := processorStep_change hprocessor
  generalize hpc : s.processor p = pc at hchange
  cases hchange with
  | quiet _ _ _ hstate _ _ hkept =>
    obtain ⟨_, hlocked₀⟩ := hkept (ProcessorPc.served_of_locked hlocked)
    rw [← hpc] at hlocked₀
    obtain ⟨hdone, hcarries⟩ := hinv p (hlocked₀.symm.trans hlocked)
    rw [recordEvents_of_state_ne h hstep (by rw [hdone]; nofun)]
    exact ⟨hstate.trans hdone, hcarries⟩
  | tick => cases hlocked
  | claim _ _ _ hunlocked =>
    rw [hunlocked] at hlocked
    cases hlocked
  | lock writes hstate =>
    rw [recordEvents_of_state_ne h hstep (by rw [hstate]; nofun)]
    refine ⟨rfl, hbusy p ?_ ?_ hstate⟩
    · rw [hpc]; rfl
    · rw [hpc]; rfl
  | publish => cases hlocked

theorem takenLocked_other {config : GuestConfig} {s s' : GuestSystem Tid Pid} {p q : Pid}
    {move : ProcessorMove} {h : List (SlotEvent Tid Pid)} (hinv : TakenLocked s h)
    (hstep : s.step config (.processor p move) = some s') (hq : q ≠ p)
    (hlocked : (s.processor q).locked = true) :
    s'.slot.state = .done ∧ CarriesTaken (recordEvents s (.processor p move) s' h) q := by
  obtain ⟨hdone, hcarries⟩ := hinv q hlocked
  rw [recordEvents_of_state_ne h hstep (by rw [hdone]; nofun)]
  refine ⟨?_, hcarries⟩
  obtain ⟨slot', pc', hprocessor, hs'⟩ := GuestSystem.step_processor hstep
  have hslot : s'.slot = slot' := by rw [hs']
  rw [hslot]
  have hchange := processorStep_change hprocessor
  generalize hpc : s.processor p = pc at hchange
  cases hchange with
  | quiet _ _ _ hstate => exact hstate.trans hdone
  | tick => exact hdone
  | claim _ hstate | lock _ hstate => cases hdone.symm.trans hstate
  | publish =>
    have hcarries' := (hinv p (by rw [hpc]; rfl)).2
    cases hcarries.symm.trans hcarries'
    contradiction

theorem takenLocked_processor {config : GuestConfig} {s s' : GuestSystem Tid Pid} {p : Pid}
    {move : ProcessorMove} {h : List (SlotEvent Tid Pid)} (hbusy : TakenBusy s h)
    (hinv : TakenLocked s h) (hstep : s.step config (.processor p move) = some s') :
    TakenLocked s' (recordEvents s (.processor p move) s' h) := by
  intro q hlocked
  by_cases hq : q = p
  · rw [hq] at hlocked ⊢
    exact takenLocked_self hbusy hinv hstep hlocked
  · rw [processor_of_ne hstep hq] at hlocked
    exact takenLocked_other hinv hstep hq hlocked

theorem lawful_step {config : GuestConfig} {s s' : GuestSystem Tid Pid}
    {a : GuestAction Tid Pid}
    (hlawful : ∀ t, (s.guest t).standing.Lawful Go.tryClaimGuestSlot)
    (hstep : s.step config a = some s') :
    ∀ t, (s'.guest t).standing.Lawful Go.tryClaimGuestSlot := by
  intro u
  cases a with
  | guest t move =>
    obtain ⟨slot', pc', hguest, rfl⟩ := GuestSystem.step_guest hstep
    by_cases hu : u = t
    · show (Function.update s.guest t pc' u).standing.Lawful _
      rw [hu, Function.update_self]
      exact lawful_guestStep (hlawful t) hguest
    · show (Function.update s.guest t pc' u).standing.Lawful _
      rw [Function.update_of_ne hu]
      exact hlawful u
  | processor p move =>
    obtain ⟨slot', pc', _, rfl⟩ := GuestSystem.step_processor hstep
    exact hlawful u

theorem takenBusy_step {config : GuestConfig} {s s' : GuestSystem Tid Pid}
    {a : GuestAction Tid Pid} {h : List (SlotEvent Tid Pid)} (hinv : TakenBusy s h)
    (hguard : TakesAlone s a) (hstep : s.step config a = some s') :
    TakenBusy s' (recordEvents s a s' h) := by
  cases a with
  | guest t move => exact takenBusy_guest hinv hstep
  | processor p move => exact takenBusy_processor hinv hguard hstep

theorem takenLocked_step {config : GuestConfig} {s s' : GuestSystem Tid Pid}
    {a : GuestAction Tid Pid} {h : List (SlotEvent Tid Pid)} (hbusy : TakenBusy s h)
    (hinv : TakenLocked s h) (hlawful : ∀ t, (s.guest t).standing.Lawful Go.tryClaimGuestSlot)
    (hguard : LeavesLocked s a) (hstep : s.step config a = some s') :
    TakenLocked s' (recordEvents s a s' h) := by
  cases a with
  | guest t move => exact takenLocked_guest hinv (hlawful t) hguard hstep
  | processor p move => exact takenLocked_processor hbusy hinv hstep

theorem locking_step {config : GuestConfig} {s s' : GuestSystem Tid Pid}
    {a : GuestAction Tid Pid} {h : List (SlotEvent Tid Pid)} (hinv : Locking s h)
    (hguard : TakesAlone s a ∧ LeavesLocked s a) (hstep : s.step config a = some s') :
    Locking s' (recordEvents s a s' h) :=
  ⟨lawful_step hinv.lawful hstep, takenBusy_step hinv.busy hguard.1 hstep,
    takenLocked_step hinv.busy hinv.locked hinv.lawful hguard.2 hstep⟩

/-- Where no request is taken while another processor is still to lock, a lock that
succeeds finds the transaction which that processor took; where moreover a locked slot
is left alone, this transaction still lies there at every header write and at the
publishing CAS. -/
theorem response_lands_on_taken (config : GuestConfig) (start : GuestSystem Tid Pid)
    (hstart : start.Initial) :
    (∀ s h, Reachable (recorded (GuestSystem.step config) recordEvents)
        (fun p a => TakesAlone p.1 a) (start, []) (s, h) →
      ∀ p, LockSucceeds s p → CarriesTaken h p) ∧
    (∀ s h, Reachable (recorded (GuestSystem.step config) recordEvents)
        (fun p a => TakesAlone p.1 a ∧ LeavesLocked p.1 a) (start, []) (s, h) →
      ∀ p, (s.processor p).locked = true → s.slot.state = .done ∧ CarriesTaken h p) := by
  constructor
  · intro s h hreach p ⟨⟨writes, hpc⟩, hbusy⟩
    have hinv := hreach.recorded_invariant TakenBusy (takenBusy_initial hstart)
      (fun _ _ _ _ => takenBusy_step)
    exact hinv p (by rw [hpc]; rfl) (by rw [hpc]; rfl) hbusy
  · intro s h hreach
    exact (hreach.recorded_invariant Locking (locking_initial hstart)
      (fun _ _ _ _ => locking_step)).locked

/-- The sender `true` publishes and gives up while processor `true` runs its handler. The
goroutine `false` reclaims the slot, publishes its own request, and processor `false`
takes it. -/
def lateProcessorRun : List (GuestAction Bool Bool) :=
  [.guest true (.call ⟨[1], .normal⟩)] ++ List.replicate 12 (.guest true (.advance 1)) ++
    processorAdvances Bool true 4 ++ [.processor true (.handlerReturns 1)] ++
    [.guest true .expire, .guest true (.advance 1), .guest false (.tryReclaim 0)] ++
    List.replicate 6 (.guest false (.advance 10)) ++ guestCallRun Bool false ++
    processorAdvances Bool false 2

/-- With two processors and a reclaimer, a lock succeeds on a transaction that another
processor has taken. -/
theorem late_lock_succeeds :
    ¬ ∀ s h, Reachable (recorded (GuestSystem.step ⟨⟨true, 1⟩, true, false⟩) recordEvents)
      (fun _ _ => True) (smallGuestStart Bool Bool, []) (s, h) →
      ∀ p, LockSucceeds s p → CarriesTaken h p := by
  intro hall
  obtain ⟨p, hreach, htest⟩ := exists_reachable_of_run
    (recorded (GuestSystem.step ⟨⟨true, 1⟩, true, false⟩) recordEvents)
    (smallGuestStart Bool Bool, []) lateProcessorRun
    (fun p => p.1.processor true = .lock [.respSize 1] && p.1.slot.state = .busy &&
      p.2.head? = some (.taken false)) (by decide)
  simp only [Bool.and_eq_true, decide_eq_true_eq] at htest
  obtain ⟨⟨hpc, hstate⟩, htaken⟩ := htest
  have hcarries := hall p.1 p.2 hreach true ⟨⟨_, hpc⟩, hstate⟩
  cases hcarries.symm.trans htaken

/-- Of two processors, the other one is not between its claim and its lock when this one
takes a request. -/
def takesBeside (s : GuestSystem Bool Bool) : GuestAction Bool Bool → Bool
  | .processor p _ => s.processor p ≠ .claim || s.slot.state ≠ .reqReady ||
      (!(s.processor (!p)).served || (s.processor (!p)).locked)
  | .guest _ _ => true

theorem takesAlone_of_takesBeside {s : GuestSystem Bool Bool} {a : GuestAction Bool Bool}
    (h : takesBeside s a = true) : TakesAlone s a := by
  rintro p now rfl hclaim hready q hq hserved
  rw [show q = !p from Bool.eq_not_of_ne hq] at hserved ⊢
  simpa [takesBeside, hclaim, hready, hserved] using h

/-- Processor `true` has locked the slot for its answer when its sender gives up. The
goroutine `false` reclaims the locked slot and publishes its own request, which processor
`false` takes. -/
def lockedProcessorRun : List (GuestAction Bool Bool) :=
  [.guest true (.call ⟨[1], .normal⟩)] ++ List.replicate 12 (.guest true (.advance 1)) ++
    processorAdvances Bool true 4 ++ [.processor true (.handlerReturns 1)] ++
    processorAdvances Bool true 1 ++
    [.guest true .expire, .guest true (.advance 1), .guest false (.tryReclaim 0)] ++
    List.replicate 6 (.guest false (.advance 10)) ++ guestCallRun Bool false ++
    processorAdvances Bool false 4 ++ [.processor false (.handlerReturns 1)]

/-- Processor `false` finds the request too, and comes too late for it. -/
def lateClaimRun : List (GuestAction Bool Bool) :=
  guestCallRun Bool true ++ processorAdvances Bool false 1 ++ processorAdvances Bool true 2 ++
    processorAdvances Bool false 2 ++ processorAdvances Bool true 2 ++
    [.processor true (.handlerReturns 1)] ++ processorAdvances Bool true 1

theorem response_lands_on_taken_twoProcessors :
    (∃ p : GuestSystem Bool Bool × List (SlotEvent Bool Bool),
      p.1.processor true = .write [.respSize 1] ∧ LockSucceeds p.1 false ∧
        CarriesTaken p.2 false) ∧
    ∃ p : GuestSystem Bool Bool × List (SlotEvent Bool Bool),
      p.1.processor true = .write [.respSize 1] ∧ p.1.slot.state = .done ∧
        CarriesTaken p.2 true := by
  obtain ⟨hlock, hwrite⟩ := response_lands_on_taken ⟨⟨true, 1⟩, true, false⟩
    (smallGuestStart Bool Bool) (smallGuestStart_initial Bool Bool)
  constructor
  · obtain ⟨p, hreach, htest⟩ := exists_reachable_of_exec
      (recorded (GuestSystem.step ⟨⟨true, 1⟩, true, false⟩) recordEvents)
      (fun p a => TakesAlone p.1 a) (smallGuestStart Bool Bool, [])
      (fun p a => takesBeside p.1 a) (fun _ _ => takesAlone_of_takesBeside) lockedProcessorRun
      (fun p => p.1.processor true = .write [.respSize 1] ∧
        p.1.processor false = .lock [.respSize 1] ∧ p.1.slot.state = .busy) (by decide)
    obtain ⟨hother, hpc, hbusy⟩ := of_decide_eq_true htest
    have hsucceeds : LockSucceeds p.1 false := ⟨⟨_, hpc⟩, hbusy⟩
    exact ⟨p, hother, hsucceeds, hlock p.1 p.2 hreach false hsucceeds⟩
  · obtain ⟨p, hreach, htest⟩ := exists_reachable_of_exec
      (recorded (GuestSystem.step ⟨⟨true, 1⟩, true, false⟩) recordEvents)
      (fun p a => TakesAlone p.1 a ∧ LeavesLocked p.1 a) (smallGuestStart Bool Bool, [])
      (fun p a => takesBeside p.1 a && p.1.slot.state ≠ .done)
      (by
        intro p a hcheck
        rw [Bool.and_eq_true] at hcheck
        exact ⟨takesAlone_of_takesBeside hcheck.1,
          fun hdone => absurd hdone (of_decide_eq_true hcheck.2)⟩)
      lateClaimRun (fun p => p.1.processor true = .write [.respSize 1]) (by decide)
    have hpc := of_decide_eq_true htest
    exact ⟨p, hpc, hwrite p.1 p.2 hreach true (by rw [hpc]; rfl)⟩

end ShmIpc.Slots
