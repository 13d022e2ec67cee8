import ShmIpc.Slots.Ownership

/-!
Held-slot sessions. One thread keeps a host slot and sends on it again and again;
the claim generation moves only when the slot is first claimed. A thief reads the
generation, the state and the active-wait flag one after the other, so it can see
the state of one send and the dropped flag after it, and then win both of its
compare-and-swaps in the next send. The session is safe when the holder never
publishes while a thief stands between its look at the flag and its last swap.
-/

namespace ShmIpc.Slots

open Library

variable {Tid : Type}

/-- A thief that has found the active-wait flag down and has not yet tried the state. -/
def HostPc.committed : HostPc → Bool
  | .claiming (.casGen _ _) | .claiming (.casState _) => true
  | _ => false

/-- The thread `holder` has the slot; the others own nothing, but may be anywhere
inside a claim. -/
structure HeldStart (holder : Tid) (s : HostSystem Tid) : Prop where
  owned : s.host holder = .owned
  busy : s.slot.state = .busy
  worker : s.worker.locked = false
  others : ∀ u, u ≠ holder → (s.host u).phase = .outside ∧ (s.host u).Lawful

/-- No other thread has come into possession while the holder is in possession. -/
def Undivided (holder : Tid) (s : HostSystem Tid) : Prop :=
  (s.host holder).phase ≠ .outside → ∀ u, u ≠ holder → (s.host u).phase = .outside

/-- The holder publishes only while no other thread is committed to a steal. -/
def PublishesUnwatched (holder : Tid) (s : HostSystem Tid) (a : HostAction Tid) : Prop :=
  ∀ now call seq, a = .host holder (.advance now) →
    s.host holder = .sending call (.storeReqReady seq) →
    ∀ u, u ≠ holder → (s.host u).committed = false

structure Held (holder : Tid) (s : HostSystem Tid) : Prop where
  own : Own s
  holds : (s.host holder).phase ≠ .outside
  flagged : (s.host holder).phase.flagged = true → s.slot.activeWait = true
  unwatched : (s.host holder).phase = .awaiting ∨ (s.host holder).phase = .ready →
    ∀ u, u ≠ holder → (s.host u).committed = false

theorem held_start {holder : Tid} {s : HostSystem Tid} (h : HeldStart holder s) :
    Held holder s where
  own := by
    have honly : ∀ u, (s.host u).phase.owns = true → u = holder := by
      intro u hu
      by_contra hne
      rw [(h.others u hne).1] at hu
      cases hu
    have hallows : ∀ t, (s.host t).Lawful ∧
        (s.host t).phase.Allows Cpp.tryClaimSlot s.slot.state := by
      intro t
      by_cases ht : t = holder
      · rw [ht, h.owned]
        exact ⟨trivial, h.busy⟩
      · obtain ⟨hout, hlawful⟩ := h.others t ht
        rw [hout]
        exact ⟨hlawful, trivial⟩
    refine ⟨fun t => (hallows t).1, ⟨?_, fun t => (hallows t).2, ?_⟩, ?_⟩
    · intro t u ht hu
      rw [honly t ht, honly u hu]
    · exact fun t ht => absurd ht (HostPc.not_releasing _)
    · intro hl
      rw [h.worker] at hl
      cases hl
  holds := by
    rw [h.owned]
    nofun
  flagged := by
    rw [h.owned]
    nofun
  unwatched := by
    rw [h.owned]
    nofun

theorem Held.undivided {holder : Tid} {s : HostSystem Tid} (h : Held holder s) :
    Undivided holder s :=
  fun hholds => h.own.others hholds

theorem committed_claim {now : Nat} {s : Slot} {pc : ClaimPc}
    (hpc : (HostPc.claiming pc).committed = false)
    (h : (HostPc.afterClaim (Cpp.tryClaimSlot.step now s pc).2).committed = true) :
    s.activeWait = false := by
  cases pc with
  | loadState g =>
    simp only [ClaimRules.step] at h
    split at h
    · cases h
    · split at h
      · cases h
      · cases h
  | bumpGen | storeLease => cases h
  | casFree =>
    simp only [ClaimRules.step] at h
    split at h
    · cases h
    · cases h
  | loadActiveWait g current =>
    simp only [ClaimRules.step] at h
    split at h
    · cases h
    case isFalse hflag => simpa using hflag
  | casGen | casState => cases hpc

theorem committed_host {layout : Layout} {s s' : Slot} {pc pc' : HostPc} {move : HostMove}
    (hstep : hostStep layout s pc move = some (s', pc')) (hpc : pc.committed = false)
    (h : pc'.committed = true) : s.activeWait = false := by
  revert hstep hpc
  fun_cases hostStep layout s pc move with
  | case3 pc now r => intro hstep hpc; cases hstep; exact committed_claim hpc h
  | case4 pc now r =>
    intro hstep
    cases hstep
    cases hr : r.2 with
    | running _ => rw [hr] at h; cases h
    | returned _ => rw [hr] at h; cases h
  | case9 call pc now r =>
    intro hstep
    cases hstep
    cases hr : r.2 with
    | running _ => rw [hr] at h; cases h
    | inFlight => rw [hr] at h; cases h
    | keeps _ => rw [hr] at h; cases h
    | leaves _ => rw [hr] at h; cases h
  | case6 | case10 | case13 => intro hstep; cases hstep
  | _ => intro hstep; cases hstep; cases h

theorem Held.no_steal {holder t : Tid} {s : HostSystem Tid} (h : Held holder s) (ht : t ≠ holder)
    {current : SlotState} (hpc : s.host t = .claiming (.casState current)) :
    s.slot.state ≠ current := by
  intro hcurrent
  have hsteal : Cpp.tryClaimSlot.stealable current = true := by
    have := h.own.lawful t
    rwa [hpc] at this
  have hcommitted : (s.host t).committed = true := by
    rw [hpc]
    rfl
  have hallows := h.own.possession.allows holder
  cases hphase : (s.host holder).phase with
  | outside => exact h.holds hphase
  | releasing => exact HostPc.not_releasing _ hphase
  | preparing | armed | consuming =>
    simp only [hphase] at hallows
    rw [← hcurrent, show s.slot.state = .busy from hallows] at hsteal
    cases hsteal
  | awaiting =>
    rw [h.unwatched (.inl hphase) t ht] at hcommitted
    cases hcommitted
  | ready =>
    rw [h.unwatched (.inr hphase) t ht] at hcommitted
    cases hcommitted

variable [DecidableEq Tid]

/-- The actions of a held session: the holder fills, sends and finally releases;
the others claim. -/
def heldSession (holder : Tid) : HostAction Tid → Bool
  | .host t move =>
    if t = holder then
      match move with
      | .fillRequest _ | .advance _ | .release => true
      | .send call => call.kind.keepsSlot
      | _ => false
    else
      match move with
      | .tryClaim | .advance _ => true
      | _ => false
  | .worker _ => true

theorem heldSession_reclaims {holder : Tid} {a : HostAction Tid} (h : heldSession holder a = true) :
    a.reclaims = false := by
  cases a with
  | host t move =>
    cases move with
    | tryReclaim age =>
      simp only [heldSession] at h
      split at h
      · cases h
      · cases h
    | _ => rfl
  | worker move => rfl

theorem Held.exclusive {holder : Tid} {s : HostSystem Tid} (h : Held holder s)
    (a : HostAction Tid) : Exclusive s a := by
  intro t current now _ hpc hcurrent u hu
  by_cases ht : t = holder
  · subst ht
    exact h.own.others h.holds u hu
  · exact absurd hcurrent (h.no_steal ht hpc)

theorem held_other {layout : Layout} {holder t : Tid} {s : HostSystem Tid} {move : HostMove}
    {slot' : Slot} {pc' : HostPc} (h : Held holder s) (ht : t ≠ holder)
    (hstep : hostStep layout s.slot (s.host t) move = some (slot', pc'))
    (hown : Own { s with slot := slot', host := Function.update s.host t pc' }) :
    Held holder { s with slot := slot', host := Function.update s.host t pc' } := by
  have hout : (s.host t).phase = .outside := h.own.others h.holds t ht
  have hflag : slot'.activeWait = s.slot.activeWait := by
    have hchange := hostStep_change hstep
    generalize hpc : s.host t = pc at hchange hout
    cases hchange with
    | startClaim | startReclaim => rfl
    | claim now pc => exact (claim_change _ now s.slot pc).flag_eq
    | reclaim now pc => exact (reclaim_change now s.slot pc).flag_eq
    | tenant _ _ _ _ _ _ hphase => exact hphase.flag_eq (by rw [hout]; rfl)
  have hholder : Function.update s.host t pc' holder = s.host holder :=
    Function.update_of_ne (Ne.symm ht) _ _
  refine ⟨hown, ?_, ?_, ?_⟩
  · show (Function.update s.host t pc' holder).phase ≠ .outside
    rw [hholder]
    exact h.holds
  · show (Function.update s.host t pc' holder).phase.flagged = true → slot'.activeWait = true
    rw [hholder, hflag]
    exact h.flagged
  · show (Function.update s.host t pc' holder).phase = _ ∨
      (Function.update s.host t pc' holder).phase = _ → _
    rw [hholder]
    intro hphase
    have hraised : s.slot.activeWait = true := by
      refine h.flagged ?_
      cases hphase with
      | inl hphase => rw [hphase]; rfl
      | inr hphase => rw [hphase]; rfl
    have hquiet := h.unwatched hphase
    refine (Function.forall_update_iff s.host
      fun u pc => u ≠ holder → pc.committed = false).mpr ⟨fun _ => ?_, fun u _ => hquiet u⟩
    by_contra hcommitted
    have hdown := committed_host hstep (hquiet t ht) (Bool.not_eq_false _ ▸ hcommitted)
    rw [hraised] at hdown
    cases hdown

/-- Only the publishing store brings the holder into the phases in which a thief
must not be committed. -/
theorem PhaseChange.awaits {rules : ClaimRules} {s s' : Slot} {p p' : Phase}
    (h : PhaseChange rules s p p' s') (hp' : p' = .awaiting ∨ p' = .ready) :
    p = .armed ∨ p = .awaiting ∨ p = .ready := by
  cases h with
  | stay => exact .inr hp'
  | publish => exact .inl rfl
  | reraise | sees => exact .inr (.inl rfl)
  | lose => exact .inr (.inr rfl)
  | _ => simp at hp'

theorem armed_iff {pc : HostPc} (h : pc.phase = .armed) :
    ∃ call seq, pc = .sending call (.storeReqReady seq) := by
  cases pc with
  | claiming pc => cases pc with
    | _ => cases h
  | sending call pc =>
    cases pc with
    | storeReqReady seq => exact ⟨call, seq, rfl⟩
    | dropActiveWait seq ready => cases ready with
      | true => cases h
      | false => cases h
    | _ => cases h
  | _ => cases h

theorem held_holder {layout : Layout} {holder : Tid} {s : HostSystem Tid} {move : HostMove}
    {slot' : Slot} {pc' : HostPc} (h : Held holder s)
    (hguard : (s.host holder).phase = .armed → ∀ u, u ≠ holder → (s.host u).committed = false)
    (hstep : hostStep layout s.slot (s.host holder) move = some (slot', pc'))
    (hown : Own { s with slot := slot', host := Function.update s.host holder pc' }) :
    pc' = .idle ∨ Held holder { s with slot := slot', host := Function.update s.host holder pc' } := by
  have hkeep : pc'.phase ≠ .outside → (pc'.phase.flagged = true → slot'.activeWait = true) →
      (pc'.phase = .awaiting ∨ pc'.phase = .ready →
        ∀ u, u ≠ holder → (s.host u).committed = false) →
      Held holder { s with slot := slot', host := Function.update s.host holder pc' } := by
    intro hholds hflagged hunwatched
    refine ⟨hown, ?_, ?_, ?_⟩
    · simpa only [Function.update_self] using hholds
    · simpa only [Function.update_self] using hflagged
    · simp only [Function.update_self]
      intro hphase u hu
      rw [Function.update_of_ne hu]
      exact hunwatched hphase u hu
  have hholds := h.holds
  have hflagged := h.flagged
  have hunwatched := h.unwatched
  have hchange := hostStep_change hstep
  generalize s.host holder = pc at hchange hholds hflagged hunwatched hguard
  cases hchange with
  | startClaim | startReclaim | reclaim => exact absurd rfl hholds
  | claim now pc =>
    cases pc with
    | storeLease => exact .inr (hkeep nofun nofun nofun)
    | _ => exact absurd rfl hholds
  | tenant _ _ _ _ htenant _ hphase =>
    by_cases hout : pc'.phase = .outside
    · exact .inl (htenant.idle hout)
    · refine .inr (hkeep hout (hphase.flag hflagged) ?_)
      intro hp'
      cases hphase.awaits hp' with
      | inl harmed => exact hguard harmed
      | inr hold => exact hunwatched hold

theorem held_step {layout : Layout} {holder : Tid} {s s' : HostSystem Tid} {a : HostAction Tid}
    (h : s.host holder = .idle ∨ Held holder s) (hsession : heldSession holder a = true)
    (hguard : PublishesUnwatched holder s a) (hstep : s.step layout a = some s') :
    s'.host holder = .idle ∨ Held holder s' := by
  cases h with
  | inl hidle =>
    refine .inl ?_
    cases a with
    | worker move =>
      obtain ⟨slot', pc', _, rfl⟩ := HostSystem.step_worker hstep
      exact hidle
    | host t move =>
      obtain ⟨slot', pc', hhost, rfl⟩ := HostSystem.step_host hstep
      by_cases ht : t = holder
      · subst ht
        rw [hidle] at hhost
        simp only [heldSession, if_true] at hsession
        cases move with
        | tryClaim | tryReclaim => cases hsession
        | _ => cases hhost
      · exact (Function.update_of_ne (Ne.symm ht) _ _).trans hidle
  | inr hheld =>
    have hown : Own s' := own_step hheld.own (heldSession_reclaims hsession)
      (hheld.exclusive a) hstep
    cases a with
    | worker move =>
      obtain ⟨slot', pc', hworker, rfl⟩ := HostSystem.step_worker hstep
      have hflag : slot'.activeWait = s.slot.activeWait :=
        (workerStep_change hworker).peer.flag_eq
      refine .inr ⟨hown, hheld.holds, ?_, ?_⟩
      · show _ → slot'.activeWait = true
        rw [hflag]
        exact hheld.flagged
      · exact hheld.unwatched
    | host t move =>
      obtain ⟨slot', pc', hhost, rfl⟩ := HostSystem.step_host hstep
      by_cases ht : t = holder
      · subst ht
        have hadvance : (s.host t).phase = .armed →
            ∀ u, u ≠ t → (s.host u).committed = false := by
          intro harmed
          obtain ⟨call, seq, hpc⟩ := armed_iff harmed
          rw [hpc] at hhost
          cases move with
          | advance now => exact hguard now call seq rfl hpc
          | _ => cases hhost
        cases held_holder hheld hadvance hhost hown with
        | inl hidle => exact .inl ((Function.update_self _ _ _).trans hidle)
        | inr hheld' => exact .inr hheld'
      · exact .inr (held_other hheld ht hhost hown)

/-- A held session stays undivided in every run in which the holder publishes only
while no other thread is committed to a steal. -/
theorem held_session_undivided (layout : Layout) (holder : Tid) (start s : HostSystem Tid)
    (hstart : HeldStart holder start)
    (hreach : Reachable (HostSystem.step layout)
      (fun s a => heldSession holder a = true ∧ PublishesUnwatched holder s a) start s) :
    Undivided holder s := by
  have hinv : s.host holder = .idle ∨ Held holder s :=
    hreach.invariant (fun s => s.host holder = .idle ∨ Held holder s) (.inr (held_start hstart))
      (fun _ _ _ h hguard hstep => held_step h hguard.1 hguard.2 hstep)
  cases hinv with
  | inl hidle =>
    intro hholds
    rw [hidle] at hholds
    exact absurd rfl hholds
  | inr hheld => exact hheld.undivided

def heldStart : HostSystem Bool where
  slot := { smallSlot with state := .busy }
  host t := if t then .owned else .idle
  worker := .polling

theorem heldStart_held : HeldStart true heldStart where
  owned := rfl
  busy := rfl
  worker := rfl
  others u hu := by
    cases u with
    | true => exact absurd rfl hu
    | false => exact ⟨rfl, trivial⟩

/-- The thief reads generation and state in the first send, the flag after it, and
swaps in the second. -/
def stolenSessionRun : List (HostAction Bool) :=
  sendRun true .held ++ [.host false .tryClaim] ++ hostAdvances false 1 ++ serveRun Bool ++
    workerAdvances Bool 4 ++ hostAdvances true 7 ++ hostAdvances false 2 ++
    sendRun true .held ++ hostAdvances false 2

theorem held_session_stolen :
    ¬ ∀ s, Reachable (HostSystem.step ⟨true, 1⟩) (fun _ a => heldSession true a = true)
      heldStart s → Undivided true s := by
  intro hall
  obtain ⟨s, hreach, htest⟩ := exists_reachable_of_exec (HostSystem.step ⟨true, 1⟩)
    (fun _ a => heldSession true a = true) heldStart (fun _ a => heldSession true a)
    (fun _ _ hcheck => hcheck) stolenSessionRun
    (fun s => (s.host true).phase = .awaiting && s.host false = .owned) (by decide)
  simp only [Bool.and_eq_true, decide_eq_true_eq] at htest
  have hphase := hall s hreach (by rw [htest.1]; nofun) false nofun
  rw [htest.2] at hphase
  cases hphase

/-- The thief finds the flag up and leaves; the holder's session goes on. -/
theorem held_session_undivided_twoSends :
    ∃ s : HostSystem Bool, (s.host true).phase = .awaiting ∧ Undivided true s := by
  obtain ⟨s, hreach, htest⟩ := exists_reachable_of_exec (HostSystem.step ⟨true, 1⟩)
    (fun s a => heldSession true a = true ∧ PublishesUnwatched true s a) heldStart
    (fun s a => heldSession true a && !(s.host false).committed)
    (by
      intro s a hcheck
      simp only [Bool.and_eq_true, Bool.not_eq_true'] at hcheck
      refine ⟨hcheck.1, ?_⟩
      intro _ _ _ _ _ u hu
      cases u with
      | true => exact absurd rfl hu
      | false => exact hcheck.2)
    (sendRun true .held ++ [.host false .tryClaim] ++ hostAdvances false 2 ++ serveRun Bool ++
      workerAdvances Bool 4 ++ hostAdvances true 7 ++ sendRun true .held)
    (fun s => (s.host true).phase = .awaiting) (by decide)
  exact ⟨s, of_decide_eq_true htest,
    held_session_undivided ⟨true, 1⟩ true heldStart s heldStart_held hreach⟩

end ShmIpc.Slots
