import ShmIpc.Library.Halting
import ShmIpc.Slots.HostSystem

/-!
A host slot is never lost. Calls may time out and leave the slot behind, claims may steal
it; whatever has happened, once every thread has returned from its calls the slot can be
claimed again. What keeps claims off the slot is always charged to somebody who will still
write it: `BUSY` to a thread that holds the slot, the publish lock to the worker, and the
active-wait flag to a thread that will lower it.
-/

namespace ShmIpc.Slots

open Library

variable {layout : Layout}

/-- The thread will write the state before it returns. -/
def SendPc.holds : SendPc → Bool
  | .reraiseActiveWait | .waiting _ | .park _ | .dropActiveWait _ false => false
  | _ => true

def HostPc.holds : HostPc → Bool
  | .claiming .storeLease | .owned => true
  | .sending _ pc => pc.holds
  | _ => false

/-- The thread will lower the flag before it returns. -/
def SendPc.raised : SendPc → Bool
  | .storeReqReady _ | .reraiseActiveWait | .waiting _ | .park _ | .dropActiveWait _ _ => true
  | _ => false

def HostPc.raised : HostPc → Bool
  | .sending _ pc => pc.raised
  | .inFlight _ => true
  | _ => false

/-- What a step of a host thread can do to the accounts. -/
structure HostCharges (s : Slot) (pc : HostPc) (s' : Slot) (pc' : HostPc) : Prop where
  busy : s'.state = .busy → pc'.holds = true ∨ s.state = .busy ∧ pc.holds = false
  flag : s'.activeWait = true → pc'.raised = true ∨ s.activeWait = true ∧ pc.raised = false
  done : s'.state = .done → s.state = .done

theorem HostCharges.of_same {s s' : Slot} {pc pc' : HostPc} (hstate : s'.state = s.state)
    (hflag : s'.activeWait = s.activeWait) (hholds : pc'.holds = true ∨ pc.holds = false)
    (hraised : pc'.raised = true ∨ pc.raised = false) : HostCharges s pc s' pc' :=
  ⟨fun h => hholds.imp_right fun hpc => ⟨hstate ▸ h, hpc⟩,
    fun h => hraised.imp_right fun hpc => ⟨hflag ▸ h, hpc⟩, fun h => hstate ▸ h⟩

theorem claim_charges (now : Nat) (s : Slot) (pc : ClaimPc) :
    HostCharges s (.claiming pc) (Cpp.tryClaimSlot.step now s pc).1
      (.afterClaim (Cpp.tryClaimSlot.step now s pc).2) := by
  have hchange := claim_change Cpp.tryClaimSlot now s pc
  generalize (Cpp.tryClaimSlot.step now s pc).1 = s' at hchange ⊢
  generalize (Cpp.tryClaimSlot.step now s pc).2 = r at hchange ⊢
  cases hchange with
  | look _ _ gen hout _ =>
    cases pc with
    | storeLease => cases hout
    | _ => exact .of_same rfl rfl (Or.inr rfl) (Or.inr rfl)
  | claimFree | steal => exact ⟨fun _ => Or.inl rfl, fun h => Or.inr ⟨h, rfl⟩, by rintro ⟨⟩⟩
  | lease => exact .of_same rfl rfl (Or.inl rfl) (Or.inr rfl)

theorem send_charges (now : Nat) (s : Slot) (call : HostCall) (pc : SendPc) :
    HostCharges s (.sending call pc) (sendStep layout now s call pc).1
      (.afterSend call (sendStep layout now s call pc).2) := by
  cases pc with
  | checkSize | storeNextSeq | checkSeq | checkType | copyResponse =>
    simp only [sendStep]
    repeat' split
    all_goals exact .of_same rfl rfl (Or.inl rfl) (Or.inr rfl)
  | storeReqSize | storeMsgType | storeMsgSeq | storeLease | loadRespSize =>
    exact .of_same rfl rfl (Or.inl rfl) (Or.inr rfl)
  | raiseActiveWait seq => exact ⟨fun _ => Or.inl rfl, fun _ => Or.inl rfl, id⟩
  | storeReqReady seq =>
    simp only [sendStep]
    split
    all_goals exact ⟨by rintro ⟨⟩, fun _ => Or.inl rfl, by rintro ⟨⟩⟩
  | reraiseActiveWait => exact ⟨fun h => Or.inr ⟨h, rfl⟩, fun _ => Or.inl rfl, id⟩
  | waiting seq =>
    simp only [sendStep]
    split
    all_goals exact .of_same rfl rfl (Or.inr rfl) (Or.inl rfl)
  | park seq => exact ⟨fun _ => Or.inl rfl, fun _ => Or.inl rfl, by rintro ⟨⟩⟩
  | dropActiveWait seq ready =>
    cases ready with
    | false => exact ⟨fun h => Or.inr ⟨h, rfl⟩, by rintro ⟨⟩, id⟩
    | true => exact ⟨fun _ => Or.inl rfl, by rintro ⟨⟩, id⟩
  | storeFree r => exact ⟨by rintro ⟨⟩, fun h => Or.inr ⟨h, rfl⟩, by rintro ⟨⟩⟩

theorem hostStep_charges {s s' : Slot} {pc pc' : HostPc} {move : HostMove}
    (h : hostStep layout s pc move = some (s', pc')) : HostCharges s pc s' pc' := by
  revert h
  fun_cases hostStep layout s pc move with
  | case6 | case10 | case13 => rintro ⟨⟩
  | case1 | case2 => rintro ⟨⟩; exact .of_same rfl rfl (Or.inr rfl) (Or.inr rfl)
  | case3 pc now r => rintro ⟨⟩; exact claim_charges now s pc
  | case4 pc now r =>
    rintro ⟨⟩
    have hchange := reclaim_change now s pc
    change HostCharges s (.reclaiming pc) (reclaimStep now s pc).1
      (.afterReclaim (reclaimStep now s pc).2)
    generalize (reclaimStep now s pc).1 = s' at hchange ⊢
    cases hchange with
    | look _ gen => exact .of_same rfl rfl (Or.inr rfl) (Or.inr rfl)
    | free observed _ => exact ⟨by rintro ⟨⟩, fun h => Or.inr ⟨h, rfl⟩, by rintro ⟨⟩⟩
  | case5 | case7 => rintro ⟨⟩; exact .of_same rfl rfl (Or.inl rfl) (Or.inr rfl)
  | case8 => rintro ⟨⟩; exact ⟨by rintro ⟨⟩, fun h => Or.inr ⟨h, rfl⟩, by rintro ⟨⟩⟩
  | case9 call pc now r => rintro ⟨⟩; exact send_charges now s call pc
  | case11 | case12 => rintro ⟨⟩; exact .of_same rfl rfl (Or.inr rfl) (Or.inl rfl)

theorem workerStep_locked {s s' : Slot} {pc pc' : WorkerPc} {move : WorkerMove}
    (h : workerStep layout s pc move = some (s', pc'))
    (hlocked : s.state = .done → pc.locked = true) (hdone : s'.state = .done) :
    pc'.locked = true := by
  cases workerGoes_of_step h with
  | lock | written | write => rfl
  | withdrawn exits now hstate => exact absurd hdone hstate
  | claim | publish => cases hdone
  | _ => cases hlocked hdone

namespace HostSystem

variable {Tid : Type} {s s' : HostSystem Tid}

/-- Whatever keeps claims off the slot is charged to somebody. -/
structure Accounted (s : HostSystem Tid) : Prop where
  busy : s.slot.state = .busy → ∃ t, (s.host t).holds = true
  flag : s.slot.activeWait = true → ∃ t, (s.host t).raised = true
  done : s.slot.state = .done → s.worker.locked = true

theorem Initial.accounted (h : s.Initial) : s.Accounted := by
  constructor <;> simp [h.free, h.flag]

/-- Nobody is at the slot. -/
def Deserted (s : HostSystem Tid) : Prop := ∀ t, s.host t = .idle

theorem Accounted.claimable (h : s.Accounted) (hdeserted : s.Deserted) :
    s.slot.state ≠ .busy ∧ s.slot.activeWait = false := by
  refine ⟨fun hbusy => ?_, Bool.eq_false_iff.mpr fun hflag => ?_⟩
  · obtain ⟨t, ht⟩ := h.busy hbusy
    simp [hdeserted t, HostPc.holds] at ht
  · obtain ⟨t, ht⟩ := h.flag hflag
    simp [hdeserted t, HostPc.raised] at ht

variable [DecidableEq Tid]

theorem exists_charged {charged : HostPc → Bool} {host : Tid → HostPc} {t : Tid} {pc : HostPc}
    (h : charged pc = true ∨ (∃ u, charged (host u) = true) ∧ charged (host t) = false) :
    ∃ u, charged (Function.update host t pc u) = true := by
  cases h with
  | inl hmover => exact ⟨t, by simpa using hmover⟩
  | inr hother =>
    obtain ⟨⟨u, hu⟩, ht⟩ := hother
    have hut : u ≠ t := by
      rintro rfl
      simp [hu] at ht
    exact ⟨u, by simpa [hut] using hu⟩

theorem accounted_step {a : HostAction Tid} (h : s.Accounted)
    (hstep : s.step layout a = some s') : s'.Accounted := by
  cases a with
  | host t move =>
    obtain ⟨slot, pc, hhost, rfl⟩ := step_host hstep
    have hcharges := hostStep_charges hhost
    refine ⟨fun hbusy => ?_, fun hflag => ?_, fun hdone => h.done (hcharges.done hdone)⟩
    · exact exists_charged ((hcharges.busy hbusy).imp_right fun hold => ⟨h.busy hold.1, hold.2⟩)
    · exact exists_charged ((hcharges.flag hflag).imp_right fun hold => ⟨h.flag hold.1, hold.2⟩)
  | worker move =>
    obtain ⟨slot, pc, hworker, rfl⟩ := step_worker hstep
    have hkept : (slot.state = .busy → s.slot.state = .busy) ∧
        slot.activeWait = s.slot.activeWait := by
      have hchange := workerStep_change hworker
      generalize s.worker = pc₀ at hchange
      cases hchange with
      | quiet _ _ _ hstate _ hflag => exact ⟨fun hbusy => hstate ▸ hbusy, hflag⟩
      | tick => exact ⟨id, rfl⟩
      | claim | lock | publish => exact ⟨nofun, rfl⟩
    exact ⟨fun hbusy => h.busy (hkept.1 hbusy), fun hflag => h.flag (hkept.2 ▸ hflag),
      workerStep_locked hworker h.done⟩

theorem accounted_of_reachable {start : HostSystem Tid} {guard} (hstart : start.Initial)
    (hs : Reachable (step layout) guard start s) : s.Accounted :=
  hs.invariant Accounted hstart.accounted fun _ _ _ h _ hstep => accounted_step h hstep

/-! ### A claim on a slot that everybody has left -/

theorem exec_host (t : Tid) (moves : List HostMove) {r : Slot × HostPc}
    (h : exec (fun p move => hostStep layout p.1 p.2 move) (s.slot, s.host t) moves = some r) :
    exec (step layout) s (moves.map (.host t)) =
      some { s with slot := r.1, host := Function.update s.host t r.2 } := by
  have hmap := exec_map (step layout) (fun p move => hostStep layout p.1 p.2 move)
    (fun r => { s with slot := r.1, host := Function.update s.host t r.2 }) (.host t)
    (fun r move => by simp [step]) moves (s.slot, s.host t)
  rwa [h, Function.update_eq_self] at hmap

theorem exec_worker (moves : List WorkerMove) {r : Slot × WorkerPc}
    (h : exec (fun p move => workerStep layout p.1 p.2 move) (s.slot, s.worker) moves = some r) :
    exec (step layout) s (moves.map .worker) = some { s with slot := r.1, worker := r.2 } := by
  have hmap := exec_map (step layout) (fun p move => workerStep layout p.1 p.2 move)
    (fun r => { s with slot := r.1, worker := r.2 }) .worker (fun _ _ => rfl) moves
    (s.slot, s.worker)
  rwa [h] at hmap

end HostSystem

/-- The answer that the worker has locked the slot for is published, whatever is left to
write before. -/
theorem exec_publish {slot : Slot} {pc : WorkerPc} (hlocked : pc.locked = true)
    (hdone : slot.state = .done) :
    ∃ n r, exec (fun p move => workerStep layout p.1 p.2 move) (slot, pc)
      (List.replicate n (.advance 0)) = some r ∧ r.1.state = .respReady ∧
      r.1.activeWait = slot.activeWait := by
  cases pc with
  | publish exits =>
    refine ⟨1, ({ slot with state := .respReady }, .afterAnswer exits), ?_, rfl, rfl⟩
    simp [exec, workerStep, hdone]
  | write writes exits =>
    induction writes generalizing slot with
    | nil =>
      refine ⟨2, ({ slot with state := .respReady }, .afterAnswer exits), ?_, rfl, rfl⟩
      simp [exec, workerStep, hdone]
    | cons w writes ih =>
      obtain ⟨hstate, -⟩ := w.apply_frame slot
      obtain ⟨n, r, hrun, hready, hflag⟩ := ih (hstate.trans hdone) rfl
      exact ⟨n + 1, r, hrun, hready, hflag.trans (by cases w <;> rfl)⟩
  | _ => cases hlocked

/-- A claim that nobody interferes with takes a free slot, and one that a caller has left
behind. -/
theorem exec_claim {slot : Slot} (hbusy : slot.state ≠ .busy)
    (hdone : slot.state ≠ .done) (hflag : slot.activeWait = false) :
    ∃ n r, exec (fun p move => hostStep layout p.1 p.2 move) (slot, .idle)
      (.tryClaim :: List.replicate n (.advance 0)) = some r ∧ r.2 = .owned ∧ r.1.state = .busy := by
  cases hstate : slot.state with
  | busy => exact absurd hstate hbusy
  | done => exact absurd hstate hdone
  | free =>
    refine ⟨4, ({ slot.bumpGen with state := .busy, lease := 0 }, .owned), ?_, rfl, rfl⟩
    simp [exec, hostStep, ClaimRules.step, hstate, HostPc.afterClaim, Slot.bumpGen,
      Cpp.tryClaimSlot]
  | reqReady | respReady | guestBusy =>
    refine ⟨5, ({ slot.bumpGen with state := .busy, lease := 0 }, .owned), ?_, rfl, rfl⟩
    simp [exec, hostStep, ClaimRules.step, hstate, HostPc.afterClaim, Slot.bumpGen,
      Cpp.tryClaimSlot, hflag]

/-- `k` steps of the worker and after them a claim of `n` steps. -/
def claimAfter {Tid : Type} (t : Tid) (k n : Nat) : List (HostAction Tid) :=
  workerAdvances Tid k ++ .host t .tryClaim :: hostAdvances t n

namespace HostSystem

variable {Tid : Type} [DecidableEq Tid]

theorem Accounted.claimed {s : HostSystem Tid} (h : s.Accounted)
    (hdeserted : s.Deserted) (t : Tid) :
    ∃ k n s', (s.slot.state ≠ .done → k = 0) ∧
      exec (step layout) s (claimAfter t k n) = some s' ∧ s'.host t = .owned ∧
      s'.slot.state = .busy := by
  obtain ⟨hbusy, hflag⟩ := h.claimable hdeserted
  have hclaim : ∀ s : HostSystem Tid, s.host t = .idle → s.slot.state ≠ .busy →
      s.slot.state ≠ .done → s.slot.activeWait = false →
      ∃ n s', exec (step layout) s (.host t .tryClaim :: hostAdvances t n) = some s' ∧
        s'.host t = .owned ∧ s'.slot.state = .busy := by
    intro s hidle hbusy hdone hflag
    obtain ⟨n, r, hrun, howned, hstate⟩ := exec_claim hbusy hdone hflag
    rw [← hidle] at hrun
    have hexec := exec_host t _ hrun
    rw [List.map_cons, List.map_replicate] at hexec
    exact ⟨n, _, hexec, by simpa using howned, hstate⟩
  by_cases hdone : s.slot.state = .done
  · obtain ⟨k, r, hrun, hready, hkept⟩ := exec_publish (h.done hdone) hdone
    have hexec := exec_worker _ hrun
    rw [List.map_replicate] at hexec
    obtain ⟨n, s', hrest, howned⟩ := hclaim { s with slot := r.1, worker := r.2 } (hdeserted t)
      (by simp [hready]) (by simp [hready]) (hkept.trans hflag)
    refine ⟨k, n, s', fun hstate => absurd hdone hstate, ?_, howned⟩
    rwa [claimAfter, exec_append, workerAdvances, hexec]
  · obtain ⟨n, s', hrest, howned⟩ := hclaim s (hdeserted t) hbusy hdone hflag
    exact ⟨0, n, s', fun _ => rfl, hrest, howned⟩

/-- However the calls on the slot went, once everybody has returned it can be claimed. The
worker moves before the claim only if it has locked the slot for an answer. -/
theorem deserted_slot_is_claimed {start s : HostSystem Tid}
    (hstart : start.Initial) (hs : Reachable (step layout) (fun _ _ => True) start s)
    (hdeserted : s.Deserted) (t : Tid) :
    ∃ k n s', (s.slot.state ≠ .done → k = 0) ∧
      exec (step layout) s (claimAfter t k n) = some s' ∧ s'.host t = .owned ∧
      s'.slot.state = .busy :=
  (accounted_of_reachable hstart hs).claimed hdeserted t

/-- A call has timed out while the worker was about to write its answer. -/
theorem deserted_slot_is_claimed_after_timeout :
    ∃ s : HostSystem Unit, s.slot.state = .done ∧
      ∃ k n s', (s.slot.state ≠ .done → k = 0) ∧
        exec (step ⟨true, 1⟩) s (claimAfter () k n) = some s' ∧ s'.host () = .owned ∧
        s'.slot.state = .busy := by
  obtain ⟨s, hs, htest⟩ := exists_reachable_of_run (step ⟨true, 1⟩) (smallStart Unit)
    (claimRun () ++ sendRun () .acquired ++ serveRun Unit ++ [.host () .expire] ++
      hostAdvances () 1)
    (fun s => s.slot.state = .done ∧ s.host () = .idle) (by decide +kernel)
  obtain ⟨hdone, hidle⟩ := of_decide_eq_true htest
  exact ⟨s, hdone, deserted_slot_is_claimed (smallStart_initial Unit) hs (fun _ => hidle) ()⟩

end HostSystem

end ShmIpc.Slots
