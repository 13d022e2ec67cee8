import ShmIpc.Library.Transition
import ShmIpc.Slots.Recovery

/-!
Whether a reclaim can free a slot that was claimed meanwhile. The winner of the
generation swap frees the slot with a CAS on the state it saw, and that state can be
back: a second reclaimer that loads the generation after the swap wins the next one,
frees the slot, and a new owner claims it. This is excluded when no reclaim loads the
state while another one is between its swap and its CAS. A new owner is moreover only
judged by its own lease when no reclaim loads the lease before the owner has stored it.
-/

namespace ShmIpc.Slots

open Library

variable {Tid : Type}

/-- The next action of the thread is the CAS of a reclaim that frees the slot. -/
def Frees (s : Recovery Tid) (t : Tid) : Prop :=
  s.thread t = .reclaiming (.casState s.slot.state)

/-- No reclaim sees a state other than free while another one is between its swap of
the generation and its CAS on the state. -/
def SightsAlone (s : Recovery Tid) (a : Tid × RecoveryMove) : Prop :=
  ∀ maxLeaseAge gen, s.thread a.1 = .reclaiming (.loadState maxLeaseAge gen) →
    s.slot.state ≠ .free → ∀ u, u ≠ a.1 → ∀ observed, s.thread u ≠ .reclaiming (.casState observed)

/-- The generation has not gone all the way round since the reclaim loaded it. -/
def WithinPeriod (s : Recovery Tid) (h : RecoveryLog Tid) (a : Tid × RecoveryMove) : Prop :=
  ∀ gen observed, s.thread a.1 = .reclaiming (.casGen gen observed) →
    h.shake.bumps - snapOf (h.shake.stage a.1) < genPeriod

/-- No reclaim loads the lease while a claim that has succeeded is still to store its own. -/
def LeasesStored (s : Recovery Tid) (a : Tid × RecoveryMove) : Prop :=
  ∀ maxLeaseAge gen observed, s.thread a.1 = .reclaiming (.loadLease maxLeaseAge gen observed) →
    ∀ u, s.thread u ≠ .claiming .storeLease

/-- Where a thread stands in the handshake, by what it does. -/
def RecoveryPc.Agrees (base : Nat) (stage : Stage) : RecoveryPc → Prop
  | .reclaiming (.loadState _ gen) => ∃ snap, stage = .noted snap ∧ gen = (base + snap) % genPeriod
  | .reclaiming (.casState _) => stage = .pending
  | .reclaiming (.loadLease _ gen _) | .reclaiming (.readClock _ gen _ _)
  | .reclaiming (.reloadLease gen _ _) | .reclaiming (.casGen gen _) =>
    ∃ snap seen, stage = .sighted snap seen ∧ gen = (base + snap) % genPeriod
  | .idle | .claiming _ => stage = .away

/-- While a reclaim can still succeed, the slot has not been claimed since that reclaim
loaded the state. -/
structure Fenced (rules : ClaimRules) (base : Nat) (s : Recovery Tid) (h : RecoveryLog Tid) :
    Prop where
  lawful : ∀ t, (s.thread t).Lawful rules
  gen : s.slot.gen = (base + h.shake.bumps) % genPeriod
  agrees : ∀ t, (s.thread t).Agrees base (h.shake.stage t)
  sound : h.shake.Sound
  exclusive : h.shake.Exclusive
  unclaimed : ∀ t, h.shake.Open t → h.claims = h.seen t ∧ s.slot.state ≠ .free

/-- A reclaim that has loaded the lease. -/
def RecoveryPc.judged : RecoveryPc → Bool
  | .reclaiming (.casState _) => true
  | .reclaiming pc => pc.judging.isSome
  | _ => false

/-- The lease in the slot is that of the last claim, unless that claim is still to store
it; and an open reclaim has judged the lease of the last claim. -/
structure Stamped (s : Recovery Tid) (h : RecoveryLog Tid) : Prop where
  storing : ∀ t, s.thread t = .claiming .storeLease → h.own t = h.claims ∧ s.slot.state ≠ .free
  current : (∀ t, s.thread t ≠ .claiming .storeLease) → h.leased = h.claims
  judged : ∀ t, (s.thread t).judged = true → h.shake.Open t →
    h.judged t = h.claims ∧ ∀ u, s.thread u ≠ .claiming .storeLease

theorem agrees_away {base : Nat} {stage : Stage} {pc : RecoveryPc} (hpc : pc.uncommitted = true) :
    pc.Agrees base stage ↔ stage = .away := by
  cases pc with
  | idle | claiming => rfl
  | reclaiming => cases hpc

theorem agrees_judging {base gen : Nat} {stage : Stage} {pc : ReclaimPc}
    (hpc : pc.judging = some gen) : (RecoveryPc.reclaiming pc).Agrees base stage ↔
      ∃ snap seen, stage = .sighted snap seen ∧ gen = (base + snap) % genPeriod := by
  cases pc with
  | readClock | reloadLease | casGen => cases hpc; rfl
  | _ => cases hpc

theorem judged_of_judging {gen : Nat} {pc : ReclaimPc} (hpc : pc.judging = some gen) :
    (RecoveryPc.reclaiming pc).judged = true := by
  cases pc with
  | readClock | reloadLease | casGen => rfl
  | _ => cases hpc

theorem casState_of_pending {base : Nat} {pc : RecoveryPc} (h : pc.Agrees base .pending) :
    ∃ observed, pc = .reclaiming (.casState observed) := by
  cases pc with
  | idle | claiming => cases h
  | reclaiming pc =>
    cases pc with
    | casState observed => exact ⟨observed, rfl⟩
    | loadState => obtain ⟨_, heq, _⟩ := h; cases heq
    | _ => obtain ⟨_, _, heq, _⟩ := h; cases heq

section

variable [DecidableEq Tid]

theorem agrees_self {rules : ClaimRules} {base : Nat} {s s' : Slot} {h h' : RecoveryLog Tid}
    {t : Tid} {pc pc' : RecoveryPc} (hgen : s.gen = (base + h.shake.bumps) % genPeriod)
    (hagrees : pc.Agrees base (h.shake.stage t))
    (hchange : RecoveryChange rules s h t pc pc' s' h') :
    pc'.Agrees base (h'.shake.stage t) := by
  cases hchange with
  | look _ _ hpc hpc' => exact (agrees_away hpc').mpr ((agrees_away hpc).mp hagrees)
  | tick | claim | lease | judge => exact hagrees
  | note => exact ⟨h.shake.bumps, Function.update_self .., hgen⟩
  | sight _ gen =>
    obtain ⟨snap, hstage, hgen'⟩ := hagrees
    refine ⟨snap, h.shake.lands, ?_, hgen'⟩
    simp only [RecoveryLog.sight, hstage]
    exact Function.update_self ..
  | check _ _ gen hpc hpc' => exact (agrees_judging hpc').mpr ((agrees_judging hpc).mp hagrees)
  | win | free | giveUp => exact Function.update_self ..

theorem gen_step {rules : ClaimRules} {base : Nat} {s s' : Slot} {h h' : RecoveryLog Tid} {t : Tid}
    {pc pc' : RecoveryPc} (hgen : s.gen = (base + h.shake.bumps) % genPeriod)
    (hchange : RecoveryChange rules s h t pc pc' s' h') :
    s'.gen = (base + h'.shake.bumps) % genPeriod := by
  cases hchange with
  | tick | win => exact bumpGen_gen hgen
  | _ => exact hgen

end

section

variable {rules : ClaimRules} {base : Nat} {s : Recovery Tid} {h h' : RecoveryLog Tid} {t : Tid}
  {move : RecoveryMove} {slot' : Slot} {pc' : RecoveryPc}

theorem Fenced.quiet (hf : Fenced rules base s h) (hguard : SightsAlone s (t, move))
    {maxLeaseAge gen : Nat} (hpc : s.thread t = .reclaiming (.loadState maxLeaseAge gen))
    (hstate : s.slot.state ≠ .free) : ∀ u, u ≠ t → h.shake.stage u ≠ .pending := by
  intro u hu hpending
  have hagrees := hf.agrees u
  rw [hpending] at hagrees
  obtain ⟨observed, hpc'⟩ := casState_of_pending hagrees
  exact hguard maxLeaseAge gen hpc hstate u hu observed hpc'

theorem Fenced.win (hf : Fenced rules base s h) (hguard : WithinPeriod s h (t, move)) {gen : Nat}
    {observed : SlotState} (hpc : s.thread t = .reclaiming (.casGen gen observed))
    (hgen : s.slot.gen = gen) : h.shake.Open t ∧ ∀ u, h.shake.stage u ≠ .pending := by
  have hagrees := hf.agrees t
  have hround := hguard gen observed hpc
  rw [hpc] at hagrees
  obtain ⟨snap, seen, hstage, hsnap⟩ := hagrees
  simp only [hstage, snapOf] at hround
  refine hf.sound.open_of_bumps hstage ?_
  refine eq_of_wrapped base (hf.sound.sighted t snap seen hstage).1 hround ?_
  rw [← hf.gen, hgen, hsnap]

theorem Fenced.pending (hf : Fenced rules base s h) {observed : SlotState}
    (hpc : s.thread t = .reclaiming (.casState observed)) : h.shake.stage t = .pending := by
  have hagrees := hf.agrees t
  rw [hpc] at hagrees
  exact hagrees

theorem Stamped.stored_of_pending (hf : Fenced rules base s h) (hs : Stamped s h)
    {observed : SlotState} (hpc : s.thread t = .reclaiming (.casState observed)) :
    h.judged t = h.claims ∧ ∀ u, s.thread u ≠ .claiming .storeLease := by
  refine hs.judged t (by rw [hpc]; rfl) ?_
  simp only [Handshake.Open, hf.pending hpc]

variable [DecidableEq Tid]

theorem Fenced.sound_step (hf : Fenced rules base s h) (hsight : SightsAlone s (t, move))
    (hchange : RecoveryChange rules s.slot h t (s.thread t) pc' slot' h') : h'.shake.Sound := by
  have hagrees := hf.agrees t
  generalize hpc : s.thread t = pc at hchange hagrees
  cases hchange with
  | look | claim | lease | judge | check => exact hf.sound
  | tick => exact hf.sound.tick
  | note => exact hf.sound.note t
  | sight _ _ hstate =>
    obtain ⟨snap, hstage, _⟩ := hagrees
    refine hf.sound.sight ?_ (hf.quiet hsight hpc hstate)
    rw [hstage]
    rfl
  | win => exact hf.sound.bump t
  | free => exact hf.sound.land (hf.pending hpc)
  | giveUp => exact hf.sound.leave t

theorem Fenced.exclusive_step (hf : Fenced rules base s h) (hround : WithinPeriod s h (t, move))
    (hchange : RecoveryChange rules s.slot h t (s.thread t) pc' slot' h') :
    h'.shake.Exclusive := by
  generalize hpc : s.thread t = pc at hchange
  cases hchange with
  | look | claim | lease | judge | check => exact hf.exclusive
  | tick => exact hf.exclusive.tick
  | note => exact hf.exclusive.note t
  | sight => exact hf.exclusive.sight t _
  | win _ _ hgen => exact hf.exclusive.bump t (hf.win hround hpc hgen).2
  | free => exact hf.exclusive.land t
  | giveUp => exact hf.exclusive.leave t

theorem Fenced.others (hf : Fenced rules base s h)
    (hchange : RecoveryChange rules s.slot h t (s.thread t) pc' slot' h') {u : Tid} (hu : u ≠ t)
    (hopen : h'.shake.Open u) : h.shake.Open u ∧ slot'.state = s.slot.state ∧
      h'.claims = h.claims ∧ h'.seen u = h.seen u ∧ h'.judged u = h.judged u := by
  generalize hpc : s.thread t = pc at hchange
  cases hchange with
  | look | tick | lease | check => exact ⟨hopen, rfl, rfl, rfl, rfl⟩
  | claim hfree => exact absurd hfree (hf.unclaimed u hopen).2
  | note | win | giveUp =>
    exact ⟨(Handshake.open_update hu _ _).mp hopen, rfl, rfl, rfl, rfl⟩
  | sight =>
    exact ⟨(Handshake.open_update hu _ _).mp hopen, rfl, rfl, Function.update_of_ne hu .., rfl⟩
  | judge => exact ⟨hopen, rfl, rfl, rfl, Function.update_of_ne hu ..⟩
  | free => exact absurd hopen (hf.exclusive.closed_of_land hu (hf.pending hpc))

theorem Fenced.unclaimed_self (hf : Fenced rules base s h) (hround : WithinPeriod s h (t, move))
    (hchange : RecoveryChange rules s.slot h t (s.thread t) pc' slot' h')
    (hopen : h'.shake.Open t) : h'.claims = h'.seen t ∧ slot'.state ≠ .free := by
  have hagrees := hf.agrees t
  generalize hpc : s.thread t = pc at hchange hagrees
  cases hchange with
  | look _ _ hquiet =>
    have haway := (agrees_away hquiet).mp hagrees
    simp only [Handshake.Open, haway] at hopen
  | tick | claim | lease =>
    have haway : h.shake.stage t = .away := hagrees
    simp only [Handshake.Open, Handshake.tick, RecoveryLog.land, haway] at hopen
  | judge | check => exact hf.unclaimed t hopen
  | sight _ _ hstate =>
    refine ⟨?_, hstate⟩
    show h.claims = Function.update h.seen t h.claims t
    rw [Function.update_self]
  | win _ _ hgen => exact hf.unclaimed t (hf.win hround hpc hgen).1
  | note | free | giveUp =>
    simp only [Handshake.Open, Handshake.note, Handshake.land, Handshake.leave,
      Function.update_self] at hopen

theorem Fenced.unclaimed_step (hf : Fenced rules base s h) (hround : WithinPeriod s h (t, move))
    (hchange : RecoveryChange rules s.slot h t (s.thread t) pc' slot' h') (u : Tid)
    (hopen : h'.shake.Open u) : h'.claims = h'.seen u ∧ slot'.state ≠ .free := by
  by_cases hu : u = t
  · rw [hu] at hopen ⊢
    exact hf.unclaimed_self hround hchange hopen
  · obtain ⟨hopen₀, hstate, hclaims, hseen, _⟩ := hf.others hchange hu hopen
    rw [hclaims, hseen, hstate]
    exact hf.unclaimed u hopen₀

theorem Fenced.step (hf : Fenced rules base s h) (hsight : SightsAlone s (t, move))
    (hround : WithinPeriod s h (t, move))
    (hchange : RecoveryChange rules s.slot h t (s.thread t) pc' slot' h') :
    Fenced rules base ⟨slot', Function.update s.thread t pc'⟩ h' where
  lawful := (Function.forall_update_iff s.thread fun _ pc => pc.Lawful rules).mpr
    ⟨hchange.lawful, fun u _ => hf.lawful u⟩
  gen := gen_step hf.gen hchange
  agrees := by
    refine (Function.forall_update_iff s.thread fun u pc =>
      pc.Agrees base (h'.shake.stage u)).mpr ⟨agrees_self hf.gen (hf.agrees t) hchange, ?_⟩
    intro u hu
    rw [hchange.stage_of_ne hu]
    exact hf.agrees u
  sound := hf.sound_step hsight hchange
  exclusive := hf.exclusive_step hround hchange
  unclaimed := hf.unclaimed_step hround hchange

theorem storing_of_change {s s' : Slot} {pc : RecoveryPc}
    (hchange : RecoveryChange rules s h t pc pc' s' h') (hpc' : pc' = .claiming .storeLease) :
    s.state = .free ∧ s' = { s with state := rules.claimed } ∧ h' = h.land t := by
  cases hchange with
  | look _ _ _ hquiet => rw [hpc'] at hquiet; cases hquiet
  | claim hfree => exact ⟨hfree, rfl, rfl⟩
  | _ => cases hpc'

theorem Stamped.storing_step (hrules : rules.Proper) (hf : Fenced rules base s h)
    (hs : Stamped s h) (hchange : RecoveryChange rules s.slot h t (s.thread t) pc' slot' h') :
    ∀ u, Function.update s.thread t pc' u = .claiming .storeLease →
      h'.own u = h'.claims ∧ slot'.state ≠ .free := by
  refine (Function.forall_update_iff s.thread fun u pc => pc = .claiming .storeLease →
    h'.own u = h'.claims ∧ slot'.state ≠ .free).mpr ⟨?_, ?_⟩
  · intro hpc'
    obtain ⟨_, rfl, rfl⟩ := storing_of_change hchange hpc'
    exact ⟨Function.update_self .., hrules.distinct.1⟩
  · intro u _ hu
    have hkept := hs.storing u hu
    generalize hpc : s.thread t = pc at hchange
    cases hchange with
    | claim hfree => exact absurd hfree hkept.2
    | free => exact absurd hu ((hs.stored_of_pending hf hpc).2 u)
    | _ => exact hkept

theorem Stamped.current_step (hs : Stamped s h)
    (hchange : RecoveryChange rules s.slot h t (s.thread t) pc' slot' h')
    (hstored : ∀ u, Function.update s.thread t pc' u ≠ .claiming .storeLease) :
    h'.leased = h'.claims := by
  obtain ⟨hself, hothers⟩ := (Function.forall_update_iff s.thread fun _ pc =>
    pc ≠ .claiming .storeLease).mp hstored
  have hcurrent : s.thread t ≠ .claiming .storeLease → h.leased = h.claims := by
    intro hpc
    refine hs.current ?_
    intro u
    by_cases hu : u = t
    · rw [hu]; exact hpc
    · exact hothers u hu
  generalize hpc : s.thread t = pc at hchange hcurrent
  cases hchange with
  | look _ _ hquiet =>
    refine hcurrent ?_
    rintro rfl
    cases hquiet
  | claim => exact absurd rfl hself
  | lease => exact (hs.storing t hpc).1
  | _ => exact hcurrent nofun

theorem Stamped.judged_self (hf : Fenced rules base s h) (hs : Stamped s h)
    (hround : WithinPeriod s h (t, move)) (hstored : LeasesStored s (t, move))
    (hchange : RecoveryChange rules s.slot h t (s.thread t) pc' slot' h')
    (hjudged : pc'.judged = true) (hopen : h'.shake.Open t) :
    h'.judged t = h'.claims ∧ ∀ u, s.thread u ≠ .claiming .storeLease := by
  generalize hpc : s.thread t = pc at hchange
  cases hchange with
  | look _ _ _ hquiet =>
    cases pc' with
    | idle | claiming => cases hjudged
    | reclaiming => cases hquiet
  | judge maxLeaseAge gen observed =>
    have hnone := hstored maxLeaseAge gen observed hpc
    refine ⟨?_, hnone⟩
    show Function.update h.judged t h.leased t = h.claims
    rw [Function.update_self]
    exact hs.current hnone
  | check pc _ gen hjudging =>
    refine hs.judged t ?_ hopen
    rw [hpc]
    exact judged_of_judging hjudging
  | win gen observed hgen =>
    refine hs.judged t ?_ (hf.win hround hpc hgen).1
    rw [hpc]
    rfl
  | _ => cases hjudged

theorem Stamped.judged_step (hf : Fenced rules base s h) (hs : Stamped s h)
    (hround : WithinPeriod s h (t, move)) (hstored : LeasesStored s (t, move))
    (hchange : RecoveryChange rules s.slot h t (s.thread t) pc' slot' h') (u : Tid)
    (hjudged : (Function.update s.thread t pc' u).judged = true) (hopen : h'.shake.Open u) :
    h'.judged u = h'.claims ∧ ∀ v, Function.update s.thread t pc' v ≠ .claiming .storeLease := by
  by_cases hu : u = t
  · rw [hu, Function.update_self] at hjudged
    rw [hu] at hopen ⊢
    obtain ⟨hown, hnone⟩ := hs.judged_self hf hround hstored hchange hjudged hopen
    refine ⟨hown, (Function.forall_update_iff s.thread fun _ pc =>
      pc ≠ .claiming .storeLease).mpr ⟨?_, fun v _ => hnone v⟩⟩
    rintro rfl
    cases hjudged
  · rw [Function.update_of_ne hu] at hjudged
    obtain ⟨hopen₀, _, hclaims, _, hsame⟩ := hf.others hchange hu hopen
    obtain ⟨hown, hnone⟩ := hs.judged u hjudged hopen₀
    rw [hclaims, hsame]
    refine ⟨hown, (Function.forall_update_iff s.thread fun _ pc =>
      pc ≠ .claiming .storeLease).mpr ⟨?_, fun v _ => hnone v⟩⟩
    intro hpc'
    exact (hf.unclaimed u hopen₀).2 (storing_of_change hchange hpc').1

theorem Stamped.step (hrules : rules.Proper) (hf : Fenced rules base s h) (hs : Stamped s h)
    (hround : WithinPeriod s h (t, move)) (hstored : LeasesStored s (t, move))
    (hchange : RecoveryChange rules s.slot h t (s.thread t) pc' slot' h') :
    Stamped ⟨slot', Function.update s.thread t pc'⟩ h' where
  storing := hs.storing_step hrules hf hchange
  current := hs.current_step hchange
  judged := hs.judged_step hf hround hstored hchange

end

theorem fenced_initial {rules : ClaimRules} {start : Recovery Tid} (hstart : start.Initial) :
    Fenced rules start.slot.gen start .empty where
  lawful t := by rw [hstart.idle t]; trivial
  gen := (Nat.mod_eq_of_lt hstart.gen).symm
  agrees t := by rw [hstart.idle t]; rfl
  sound := ⟨nofun, nofun⟩
  exclusive := ⟨nofun, nofun⟩
  unclaimed _ hopen := hopen.elim

theorem stamped_initial {start : Recovery Tid} (hstart : start.Initial) :
    Stamped start .empty where
  storing t hpc := by rw [hstart.idle t] at hpc; cases hpc
  current _ := rfl
  judged _ _ hopen := hopen.elim

variable [DecidableEq Tid]

/-- The condition under which the generation fences the reclaims off each other. -/
def FencedStep (p : Recovery Tid × RecoveryLog Tid) (a : Tid × RecoveryMove) : Prop :=
  SightsAlone p.1 a ∧ WithinPeriod p.1 p.2 a

theorem fenced_recorded {rules : ClaimRules} {base : Nat} {s s' : Recovery Tid}
    {h : RecoveryLog Tid} {a : Tid × RecoveryMove} (hf : Fenced rules base s h)
    (hguard : FencedStep (s, h) a) (hstep : s.step rules a = some s') :
    Fenced rules base s' (recordRecovery s a s' h) := by
  obtain ⟨slot', pc', rfl, hchange⟩ := recovery_change h (hf.lawful a.1) hstep
  exact hf.step hguard.1 hguard.2 hchange

theorem stamped_recorded {rules : ClaimRules} {base : Nat} {s s' : Recovery Tid}
    {h : RecoveryLog Tid} {a : Tid × RecoveryMove} (hrules : rules.Proper)
    (hf : Fenced rules base s h) (hs : Stamped s h) (hguard : FencedStep (s, h) a)
    (hstored : LeasesStored s a) (hstep : s.step rules a = some s') :
    Stamped s' (recordRecovery s a s' h) := by
  obtain ⟨slot', pc', rfl, hchange⟩ := recovery_change h (hf.lawful a.1) hstep
  exact hs.step hrules hf hguard.2 hstored hchange

/-- Where no reclaim loads the state while another one is between its swap and its CAS,
a reclaim frees the slot only if no claim succeeded since its own load of the state.
Where moreover no reclaim loads the lease before the last claim has stored it, the
lease that was found stale is the one of the claim that loses the slot. -/
theorem reclaim_spares_claims (rules : ClaimRules) (hrules : rules.Proper) (start : Recovery Tid)
    (hstart : start.Initial) :
    (∀ s h, Reachable (recorded (Recovery.step rules) recordRecovery) FencedStep
        (start, .empty) (s, h) → ∀ t, Frees s t → h.claims = h.seen t) ∧
    (∀ s h, Reachable (recorded (Recovery.step rules) recordRecovery)
        (fun p a => FencedStep p a ∧ LeasesStored p.1 a) (start, .empty) (s, h) →
      ∀ t, Frees s t → h.judged t = h.claims) := by
  constructor
  · intro s h hreach t hfrees
    have hf : Fenced rules start.slot.gen s h :=
      hreach.recorded_invariant (Fenced rules start.slot.gen) (fenced_initial hstart)
        (fun _ _ _ _ => fenced_recorded)
    refine (hf.unclaimed t ?_).1
    simp only [Handshake.Open, hf.pending hfrees]
  · intro s h hreach t hfrees
    obtain ⟨hf, hs⟩ : Fenced rules start.slot.gen s h ∧ Stamped s h :=
      hreach.recorded_invariant (fun s h => Fenced rules start.slot.gen s h ∧ Stamped s h)
        ⟨fenced_initial hstart, stamped_initial hstart⟩
        (fun _ _ _ _ hinv hguard hstep => ⟨fenced_recorded hinv.1 hguard.1 hstep,
          stamped_recorded hrules hinv.1 hinv.2 hguard.1 hguard.2 hstep⟩)
    exact (hs.stored_of_pending hf hfrees).1

def abandonedStart (Tid : Type) (state : SlotState) : Recovery Tid where
  slot :=
    { state := state
      gen := 0
      lease := 1
      msgSeq := 0
      reqSize := 0
      respSize := 0
      msgType := .normal
      reqBuffer := []
      respBuffer := []
      activeWait := false
      nextSeq := 0 }
  thread _ := .idle

theorem abandonedStart_initial (Tid : Type) (state : SlotState) :
    (abandonedStart Tid state).Initial :=
  ⟨Nat.two_pow_pos 64, fun _ => rfl⟩

def Recovery.reclaimRun (t : Tid) (n : Nat) : List (Tid × RecoveryMove) :=
  (t, .tryReclaim 0) :: List.replicate n (t, .advance 10)

def Recovery.claimRun (t : Tid) (n : Nat) : List (Tid × RecoveryMove) :=
  (t, .tryClaim) :: List.replicate n (t, .advance 2)

/-- Thread 0 wins the swap of the generation, thread 1 wins the next one and frees the
slot, and thread 2 claims it. -/
def twoReclaimers : List (Fin 3 × RecoveryMove) :=
  Recovery.reclaimRun 0 5 ++ Recovery.reclaimRun 1 6 ++ Recovery.claimRun 2 4

/-- The slot is freed, claimed, and judged by its old lease before the new one is stored. -/
def laggingLease : List (Bool × RecoveryMove) :=
  Recovery.reclaimRun true 6 ++ Recovery.claimRun false 3 ++ Recovery.reclaimRun true 5

instance (s : Recovery Tid) (t : Tid) : Decidable (Frees s t) :=
  inferInstanceAs (Decidable (_ = _))

/-- On either side a reclaim frees a slot that was claimed after it loaded the state; and
already one reclaimer frees a new owner that is still to store its lease. -/
theorem reclaim_frees_new_owner :
    (¬ ∀ s h, Reachable (recorded (Recovery.step Cpp.tryClaimSlot) recordRecovery)
        (fun _ _ => True) (abandonedStart (Fin 3) .busy, .empty) (s, h) →
      ∀ t, Frees s t → h.claims = h.seen t) ∧
    (¬ ∀ s h, Reachable (recorded (Recovery.step Go.tryClaimGuestSlot) recordRecovery)
        (fun _ _ => True) (abandonedStart (Fin 3) .guestBusy, .empty) (s, h) →
      ∀ t, Frees s t → h.claims = h.seen t) ∧
    ¬ ∀ s h, Reachable (recorded (Recovery.step Cpp.tryClaimSlot) recordRecovery)
        (fun _ _ => True) (abandonedStart Bool .busy, .empty) (s, h) →
      ∀ t, Frees s t → h.judged t = h.claims := by
  refine ⟨?_, ?_, ?_⟩
  · intro hall
    obtain ⟨p, hreach, htest⟩ := exists_reachable_of_run
      (recorded (Recovery.step Cpp.tryClaimSlot) recordRecovery)
      (abandonedStart (Fin 3) .busy, .empty) twoReclaimers
      (fun p => Frees p.1 0 ∧ p.2.claims ≠ p.2.seen 0) (by decide)
    obtain ⟨hfrees, hclaims⟩ := of_decide_eq_true htest
    exact hclaims (hall p.1 p.2 hreach 0 hfrees)
  · intro hall
    obtain ⟨p, hreach, htest⟩ := exists_reachable_of_run
      (recorded (Recovery.step Go.tryClaimGuestSlot) recordRecovery)
      (abandonedStart (Fin 3) .guestBusy, .empty) twoReclaimers
      (fun p => Frees p.1 0 ∧ p.2.claims ≠ p.2.seen 0) (by decide)
    obtain ⟨hfrees, hclaims⟩ := of_decide_eq_true htest
    exact hclaims (hall p.1 p.2 hreach 0 hfrees)
  · intro hall
    obtain ⟨p, hreach, htest⟩ := exists_reachable_of_run
      (recorded (Recovery.step Cpp.tryClaimSlot) recordRecovery)
      (abandonedStart Bool .busy, .empty) laggingLease
      (fun p => Frees p.1 true ∧ p.2.judged true ≠ p.2.claims) (by decide)
    obtain ⟨hfrees, hjudged⟩ := of_decide_eq_true htest
    exact hjudged (hall p.1 p.2 hreach true hfrees)

theorem fencedStep_of_alone {p : Recovery Bool × RecoveryLog Bool} {a : Bool × RecoveryMove}
    (hidle : p.1.thread (!a.1) = .idle) (hbumps : p.2.shake.bumps < genPeriod) :
    FencedStep p a ∧ LeasesStored p.1 a := by
  have hother : ∀ u, u ≠ a.1 → p.1.thread u = .idle := by
    intro u hu
    rw [Bool.eq_not_of_ne hu]
    exact hidle
  refine ⟨⟨?_, ?_⟩, ?_⟩
  · intro _ _ _ _ u hu observed
    rw [hother u hu]
    nofun
  · intro _ _ _
    exact Nat.lt_of_le_of_lt (Nat.sub_le ..) hbumps
  · intro _ _ _ hpc u
    by_cases hu : u = a.1
    · rw [hu, hpc]
      nofun
    · rw [hother u hu]
      nofun

/-- A slot is reclaimed, claimed again, and reclaimed once more when the new lease has
run out as well. -/
theorem reclaim_spares_claims_twice :
    ∃ p : Recovery Bool × RecoveryLog Bool, Frees p.1 true ∧ p.2.claims = 1 ∧
      p.2.claims = p.2.seen true ∧ p.2.judged true = p.2.claims := by
  obtain ⟨hseen, hjudged⟩ := reclaim_spares_claims Cpp.tryClaimSlot tryClaimSlot_proper
    (abandonedStart Bool .busy) (abandonedStart_initial Bool .busy)
  obtain ⟨p, hreach, htest⟩ := exists_reachable_of_exec
    (recorded (Recovery.step Cpp.tryClaimSlot) recordRecovery)
    (fun p a => FencedStep p a ∧ LeasesStored p.1 a) (abandonedStart Bool .busy, .empty)
    (fun p a => p.1.thread (!a.1) = .idle ∧ p.2.shake.bumps < genPeriod)
    (fun p a hcheck => fencedStep_of_alone (of_decide_eq_true hcheck).1
      (of_decide_eq_true hcheck).2)
    (Recovery.reclaimRun true 6 ++ Recovery.claimRun false 4 ++ Recovery.reclaimRun true 5)
    (fun p => Frees p.1 true ∧ p.2.claims = 1) (by decide)
  obtain ⟨hfrees, hclaims⟩ := of_decide_eq_true htest
  exact ⟨p, hfrees, hclaims, hseen p.1 p.2 (hreach.mono fun _ _ hguard => hguard.1) true hfrees,
    hjudged p.1 p.2 hreach true hfrees⟩

end ShmIpc.Slots
