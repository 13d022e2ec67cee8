import ShmIpc.Slots.Ownership

/-!
A response is published only on the transaction the worker claimed. Only the
worker ever writes `guestBusy` or `done`, so a slot that has left these states
since the worker's claim is not found in one of them again, and the worker's
compare-and-swaps fail. Under exclusive ownership nobody moves a locked slot, so
the header writes between the two of them are covered as well.
-/

namespace ShmIpc.Slots

open Library

variable {Tid : Type}

def claimsRequest (s : HostSystem Tid) : HostAction Tid → Bool
  | .worker (.advance _) => s.worker = .claim && s.slot.state = .reqReady
  | _ => false

/-- The states the slot has been in since the worker's latest claim. -/
def recordStates (s : HostSystem Tid) (a : HostAction Tid) (s' : HostSystem Tid)
    (since : List SlotState) : List SlotState :=
  if claimsRequest s a then [s'.slot.state] else s'.slot.state :: since

def Undisturbed (since : List SlotState) : Prop :=
  ∀ st ∈ since, st = .guestBusy ∨ st = .done

/-- The worker is about to publish its response, and the slot still lets it. -/
def PublishSucceeds (s : HostSystem Tid) : Prop :=
  (∃ exits, s.worker = .publish exits) ∧ s.slot.state = .done

/-- The worker is about to store a field of the response header. -/
def WritesHeader (s : HostSystem Tid) : Prop :=
  ∃ w writes exits, s.worker = .write (w :: writes) exits

/-- A step of the worker that changes the response header is such a store. -/
theorem writesHeader_of_workerStep {layout : Layout} {s : HostSystem Tid} {move : WorkerMove}
    {slot' : Slot} {pc' : WorkerPc} (h : workerStep layout s.slot s.worker move = some (slot', pc'))
    (hchanged : slot'.respSize ≠ s.slot.respSize ∨ slot'.msgType ≠ s.slot.msgType) :
    WritesHeader s := by
  generalize hpc : s.worker = pc at h
  cases workerGoes_of_step h with
  | write w writes exits now => exact ⟨w, writes, exits, hpc⟩
  | _ =>
    obtain hsize | htype := hchanged
    · exact absurd rfl hsize
    · exact absurd rfl htype

/-- While the slot is in a state of the worker, it has been in one since the claim. -/
def Traced (p : HostSystem Tid × List SlotState) : Prop :=
  p.1.worker.served = true → p.1.slot.state = .guestBusy ∨ p.1.slot.state = .done →
    Undisturbed p.2

theorem undisturbed_cons {st : SlotState} {since : List SlotState}
    (hst : st = .guestBusy ∨ st = .done) (h : Undisturbed since) : Undisturbed (st :: since) := by
  intro x hx
  cases hx with
  | head => exact hst
  | tail _ hx => exact h x hx

theorem HostChange.state_eq {s s' : Slot} {pc pc' : HostPc} (h : HostChange s pc pc' s')
    (hst : s'.state = .guestBusy ∨ s'.state = .done) : s'.state = s.state := by
  have hclaim : ∀ {cpc r}, ClaimChange Cpp.tryClaimSlot s cpc r s' → s'.state = s.state := by
    intro cpc r hchange
    cases hchange with
    | look | lease => rfl
    | claimFree | steal => simp [Cpp.tryClaimSlot] at hst
  have hreclaim : ∀ {rpc}, ReclaimChange s rpc s' → s'.state = s.state := by
    intro rpc hchange
    cases hchange with
    | look => rfl
    | free => simp at hst
  have htenant : ∀ {p p'}, PhaseChange Cpp.tryClaimSlot s p p' s' → s'.state = s.state := by
    intro p p' hchange
    cases hchange with
    | prepare _ hstate => exact hstate
    | publish | free | release => simp at hst
    | consume => simp [Cpp.tryClaimSlot] at hst
    | _ => rfl
  cases h with
  | startClaim | startReclaim => rfl
  | claim now cpc => exact hclaim (claim_change _ now s cpc)
  | reclaim now rpc => exact hreclaim (reclaim_change now s rpc)
  | tenant _ _ _ _ _ _ hphase => exact htenant hphase

variable [DecidableEq Tid]

theorem traced_host {s : HostSystem Tid} {since : List SlotState} {t : Tid} {pc' : HostPc}
    {slot' : Slot} (htraced : Traced (s, since))
    (hchange : HostChange s.slot (s.host t) pc' slot') :
    Traced ({ s with slot := slot', host := Function.update s.host t pc' },
      slot'.state :: since) := by
  intro hserved hst
  have hstate : slot'.state = s.slot.state := hchange.state_eq hst
  exact undisturbed_cons hst (htraced hserved (hstate ▸ hst))

omit [DecidableEq Tid] in
theorem traced_worker {s : HostSystem Tid} {since : List SlotState} {pc' : WorkerPc}
    {slot' : Slot} (htraced : Traced (s, since))
    (hchange : WorkerChange s.slot s.worker pc' slot')
    (hclaim : s.worker ≠ .claim ∨ s.slot.state ≠ .reqReady) :
    Traced ({ s with slot := slot', worker := pc' }, slot'.state :: since) := by
  intro hserved hst
  generalize hpc : s.worker = pc at hchange
  cases hchange with
  | tick => cases hserved
  | quiet _ _ _ hstate _ _ hold _ =>
    exact undisturbed_cons hst (htraced (hpc ▸ hold hserved) (hstate ▸ hst))
  | claim _ h _ =>
    cases hclaim with
    | inl hne => exact absurd hpc hne
    | inr hne => exact absurd h hne
  | lock writes exits h => exact undisturbed_cons hst (htraced (hpc ▸ rfl) (.inl h))
  | publish exits h => simp at hst

theorem traced_step {layout : Layout} {s s' : HostSystem Tid} {since : List SlotState}
    {a : HostAction Tid} (htraced : Traced (s, since)) (hstep : s.step layout a = some s') :
    Traced (s', recordStates s a s' since) := by
  cases a with
  | host t move =>
    obtain ⟨slot', pc', hhost, rfl⟩ := HostSystem.step_host hstep
    exact traced_host htraced (hostStep_change hhost)
  | worker move =>
    obtain ⟨slot', pc', hworker, rfl⟩ := HostSystem.step_worker hstep
    have hchange := workerStep_change hworker
    by_cases hclaim : claimsRequest s (.worker move) = true
    · rw [recordStates, if_pos hclaim]
      intro _ hst
      exact undisturbed_cons hst (fun _ h => by cases h)
    · rw [recordStates, if_neg hclaim]
      refine traced_worker htraced hchange ?_
      by_contra hboth
      obtain ⟨hpc, hst⟩ := not_or.mp hboth
      simp only [not_not] at hpc hst
      cases move with
      | advance now => simp [claimsRequest, hpc, hst] at hclaim
      | _ => rw [hpc] at hworker; cases hworker

omit [DecidableEq Tid] in
theorem traced_initial {start : HostSystem Tid} (h : start.Initial) : Traced (start, []) := by
  intro hserved
  rw [show start.worker = .polling from h.polling] at hserved
  cases hserved

/-- Whenever the worker publishes a response, the slot has been in the worker's
states since the worker's own claim, whatever the host threads did. Without a
reclaimer and with exclusive ownership, each store to the response header finds
the slot in the same situation. -/
theorem response_lands_on_claimed (layout : Layout) (start : HostSystem Tid)
    (hstart : start.Initial) :
    (∀ s since, Reachable (recorded (HostSystem.step layout) recordStates) (fun _ _ => True)
      (start, []) (s, since) → PublishSucceeds s → Undisturbed since) ∧
    (∀ s since, Reachable (recorded (HostSystem.step layout) recordStates)
      (fun p a => a.reclaims = false ∧ Exclusive p.1 a) (start, []) (s, since) →
      WritesHeader s → s.slot.state = .done ∧ Undisturbed since) := by
  refine ⟨?_, ?_⟩
  · intro s since hreach hpublish
    obtain ⟨⟨exits, hpc⟩, hdone⟩ := hpublish
    have htraced : Traced (s, since) := hreach.recorded_invariant (fun s h => Traced (s, h))
      (traced_initial hstart) (fun _ _ _ _ htraced _ hstep => traced_step htraced hstep)
    exact htraced (show s.worker.served = true by rw [hpc]; rfl) (.inr hdone)
  · intro s since hreach hwrites
    obtain ⟨w, writes, exits, hpc⟩ := hwrites
    have hinv : Own s ∧ Traced (s, since) :=
      hreach.recorded_invariant (fun s h => Own s ∧ Traced (s, h))
        ⟨own_initial hstart, traced_initial hstart⟩
        (fun _ _ _ _ h hguard hstep =>
          ⟨own_step h.1 hguard.1 hguard.2 hstep, traced_step h.2 hstep⟩)
    have hdone : s.slot.state = .done := hinv.1.locked (by rw [hpc]; rfl)
    exact ⟨hdone, hinv.2 (show s.worker.served = true by rw [hpc]; rfl) (.inr hdone)⟩

theorem response_lands_on_claimed_oneCall :
    (∃ p : HostSystem Unit × List SlotState, PublishSucceeds p.1 ∧ Undisturbed p.2) ∧
    (∃ p : HostSystem Unit × List SlotState, WritesHeader p.1 ∧ Undisturbed p.2) := by
  have hlands := response_lands_on_claimed ⟨true, 1⟩ (smallStart Unit) (smallStart_initial Unit)
  refine ⟨?_, ?_⟩
  · obtain ⟨p, hreach, htest⟩ := exists_reachable_of_exec
      (recorded (HostSystem.step ⟨true, 1⟩) recordStates) (fun _ _ => True) (smallStart Unit, [])
      (fun _ _ => true) (fun _ _ _ => True.intro)
      (claimRun () ++ sendRun () .acquired ++ serveRun Unit ++ workerAdvances Unit 3)
      (fun p => p.1.worker = .publish false && p.1.slot.state = .done) (by decide)
    simp only [Bool.and_eq_true, decide_eq_true_eq] at htest
    have hpublish : PublishSucceeds p.1 := ⟨⟨false, htest.1⟩, htest.2⟩
    exact ⟨p, hpublish, hlands.1 p.1 p.2 hreach hpublish⟩
  · obtain ⟨p, hreach, htest⟩ := exists_reachable_of_exec
      (recorded (HostSystem.step ⟨true, 1⟩) recordStates)
      (fun p a => a.reclaims = false ∧ Exclusive p.1 a) (smallStart Unit, [])
      (fun _ a => !a.reclaims)
      (fun _ _ hcheck => ⟨by simpa using hcheck, fun _ _ _ _ _ _ _ hu => absurd rfl hu⟩)
      (claimRun () ++ sendRun () .acquired ++ serveRun Unit)
      (fun p => p.1.worker = .write [.respSize 1, .msgType .normal] false) (by decide)
    have hwrites : WritesHeader p.1 := ⟨_, _, _, of_decide_eq_true htest⟩
    exact ⟨p, hwrites, (hlands.2 p.1 p.2 hreach hwrites).2⟩

end ShmIpc.Slots
