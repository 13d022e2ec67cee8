import ShmIpc.Library.Counting
import ShmIpc.Stream.SendInvariant

/-!
A stream from the C++ sender to the Go guest. Runs without timeouts cannot fail, cannot
get stuck and cannot go on: a measure counts down the chunks still to go out, to run and
to be drained.
-/

namespace ShmIpc.Stream
open Library

def SlotUse.isPublished : SlotUse → Bool
  | .published _ _ => true
  | _ => false

namespace SendAction

def isTimeout : SendAction → Bool
  | .acquireTimeout | .timeout => true
  | _ => false

/-- Steps of the sender and of the workers that serve it. -/
def isSystem : SendAction → Bool
  | .acquire _ | .proceed | .work _ _ => true
  | _ => false

end SendAction

namespace SendState

variable {P : SendCall} {s : SendState}

def waiting (s : SendState) : Nat :=
  s.pendingSlots.countP fun slot => (s.slots slot).isPublished

/-- A chunk still to be published is worth its publication, its run and its
drain; the drain also pays for the round of the outer loop it ends. -/
def load (P : SendCall) (s : SendState) : Nat :=
  4 * (P.totalChunks - s.chunkIndex) + 2 * s.pendingSlots.length + s.waiting

def stepsLeft (P : SendCall) (s : SendState) : Nat :=
  match s.phase with
  | .enter => 4 * P.totalChunks + 10
  | .start => 4 * P.totalChunks + 9
  | .startWait slot =>
    4 * P.totalChunks + 7 + (if (s.slots slot).isPublished then 1 else 0)
  | .fill => s.load P + 1
  | .drain => s.load P
  | _ => 0

/-- Where a run without timeouts can be. -/
def CalmAt (s : SendState) : SendPhase → Prop
  | .fill => s.remaining > 0 ∨ s.pendingSlots ≠ []
  | .drain => s.pendingSlots ≠ []
  | .failing _ => False
  | .returned (.failure _) => False
  | _ => True

def Calm (s : SendState) : Prop := CalmAt s s.phase

theorem calm_loopTest (s : SendState) : Calm s.loopTest := by
  simp only [loopTest]
  split
  · next h => exact h
  · trivial

theorem stepsLeft_loopTest (P : SendCall) (s : SendState) :
    s.loopTest.stepsLeft P ≤ s.load P + 1 := by
  simp only [loopTest]
  split
  · exact Nat.le_refl _
  · exact Nat.zero_le _

theorem calm_acquire (hP : P.Valid) (h : Inv P s) (slot : Nat) (s' : SendState)
    (hs' : s.acquire P slot = some s') :
    Calm s' ∧ s'.stepsLeft P + 1 ≤ s.stepsLeft P := by
  obtain ⟨hslot, huse⟩ := acquires_of_eq hs'
  rw [Inv] at h
  generalize hphase : s.phase = phase at h huse
  cases huse with
  | abort hsmall => exact absurd hP.room (Nat.not_lt.mpr hsmall)
  | start hroom =>
    refine ⟨trivial, ?_⟩
    simp [stepsLeft, hphase, setSlot, SlotUse.isPublished]
  | chunk hfill =>
    have hnew := h.notMem_of_acquirable slot hslot
    rw [sendChunk_eq hP.sized h.remaining (canFill_iff.mp hfill).1 slot]
    have hphase' : (s.published P slot (s.advance P).rr).phase = .fill := hphase
    have hwait : (s.published P slot (s.advance P).rr).waiting = s.waiting + 1 := by
      simp only [waiting, published]
      rw [List.countP_append, countP_update_of_notMem s.pendingSlots SlotUse.isPublished
        s.slots slot _ hnew, List.countP_singleton, Function.update_self]
      rfl
    have hload : (s.published P slot (s.advance P).rr).load P + 1 ≤ s.load P := by
      have hrem := h.remaining
      simp only [canFill, Bool.and_eq_true, decide_eq_true_eq] at hfill
      have hlt : s.chunkIndex < P.totalChunks := (hP.sized.lt_totalChunks _).mpr (by omega)
      simp only [load, hwait]
      simp only [published, List.length_append, List.length_singleton]
      omega
    refine ⟨?_, ?_⟩
    · rw [Calm, hphase']
      exact Or.inr (by simp [published])
    · simp only [stepsLeft, hphase', hphase]
      omega

theorem calm_proceed (hP : P.Valid) (hchunks : P.totalChunks ≤ Go.MaxStreamChunks)
    (h : Inv P s) (hcalm : Calm s) (s' : SendState) (hs' : s.proceed P = some s') :
    Calm s' ∧ s'.stepsLeft P + 1 ≤ s.stepsLeft P := by
  have hgo := proceeds_of_eq hs'
  rw [Inv] at h
  rw [Calm] at hcalm
  generalize hphase : s.phase = phase at h hcalm hgo
  cases hgo with
  | tooLarge hlarge => exact absurd hlarge (Nat.not_lt.mpr hP.size)
  | enter hsize =>
    refine ⟨trivial, ?_⟩
    simp [stepsLeft, hphase]
  | startRejected slot hans =>
    cases h.status with
    | inl hpub => rw [hpub.1] at hans; cases hans
    | inr hdone =>
      cases hdone with
      | inl herror => omega
      | inr hok => rw [hok.1] at hans; cases hans
  | started slot reply hans hreply =>
    refine ⟨calm_loopTest _, ?_⟩
    have hle := stepsLeft_loopTest P (s.setSlot slot .idle)
    have hload : (s.setSlot slot .idle).load P = 4 * P.totalChunks := by
      simp [load, waiting, setSlot, h.ready.pendingSlots, h.ready.chunkIndex]
    have hsteps : 4 * P.totalChunks + 7 ≤ s.stepsLeft P := by
      simp only [stepsLeft, hphase]
      omega
    omega
  | aborted => exact h.elim
  | filled hfull =>
    refine ⟨?_, ?_⟩
    · intro hempty
      have hpos := hP.window_pos
      have hempty' : s.pendingSlots = [] := hempty
      simp only [canFill, hempty', List.length_nil, Bool.and_eq_true, decide_eq_true_eq,
        not_and] at hfull
      cases hcalm with
      | inl hrem => exact hfull hrem hpos
      | inr hne => exact hne hempty'
    · simp only [stepsLeft, hphase]
      exact Nat.le_refl _
  | loop hempty => exact absurd hempty hcalm
  | rejected slot rest hpending hans =>
    cases Windowed.answered_normal h slot rest hpending _ hans
  | acknowledged slot rest reply hpending hans hreply =>
    refine ⟨calm_loopTest _, ?_⟩
    have hle := stepsLeft_loopTest P (s.popped slot rest)
    have hnodup := h.nodup
    rw [hpending, List.nodup_cons] at hnodup
    have hwait : (s.popped slot rest).waiting = s.waiting := by
      simp only [waiting, popped, hpending, List.countP_cons, hans]
      rw [countP_update_of_notMem rest SlotUse.isPublished s.slots slot _ hnodup.1]
      rfl
    have hload : (s.popped slot rest).load P + 2 = s.load P := by
      simp only [load, hwait]
      simp only [popped, hpending, List.length_cons]
      omega
    have hsteps : s.stepsLeft P = s.load P := by simp only [stepsLeft, hphase]
    exact Nat.le_trans (Nat.succ_le_succ hle) (by omega)
  | failed | drained => exact hcalm.elim

theorem calm_work (hP : P.Valid) (h : Inv P s) (hcalm : Calm s) (slot : Nat)
    (env : Go.Surroundings) (s' : SendState) (hs' : s.work slot env = some s') :
    Calm s' ∧ s'.stepsLeft P + 1 ≤ s.stepsLeft P := by
  have hphase' := work_phase slot env s' hs'
  rw [Inv] at h
  rw [Calm] at hcalm
  rw [Calm, hphase']
  have hwindow : Windowed P s → s'.load P + 1 = s.load P ∧
      s'.pendingSlots = s.pendingSlots ∧ s'.remaining = s.remaining := by
    intro hw
    obtain ⟨-, ⟨j, msg, hj, hpub⟩, guest, delivered, rfl⟩ := windowed_work hP hw slot env s' hs'
    have hcount := countP_update_of_mem s.pendingSlots SlotUse.isPublished s.slots slot
      (.answered .normal) hw.nodup (List.mem_of_getElem? hj)
    have hbefore : (s.slots slot).isPublished = true := by rw [hpub]; rfl
    have hafter : (SlotUse.answered .normal).isPublished = false := rfl
    simp only [hbefore, hafter, if_true, Bool.false_eq_true, if_false, Nat.add_zero] at hcount
    refine ⟨?_, rfl, rfl⟩
    simp only [load, waiting, answeredAt]
    omega
  cases hphase : s.phase with
  | enter | start =>
    rw [hphase] at h
    simp [work, h.idle slot] at hs'
  | startWait slot' =>
    rw [hphase] at h
    refine ⟨trivial, ?_⟩
    obtain ⟨-, -, hpub, reply, hans⟩ := starting_work hP slot' h slot env s' hs'
    simp [stepsLeft, hphase', hphase, hpub, hans, SlotUse.isPublished]
  | abortWait slot' => rw [hphase] at h; exact h.elim
  | fill =>
    rw [hphase] at h hcalm
    obtain ⟨hload, hpending, hrem⟩ := hwindow h
    refine ⟨?_, ?_⟩
    · rw [CalmAt, hpending, hrem]
      exact hcalm
    · simp only [stepsLeft, hphase', hphase]
      omega
  | drain =>
    rw [hphase] at h hcalm
    obtain ⟨hload, hpending, hrem⟩ := hwindow h
    refine ⟨?_, ?_⟩
    · rw [CalmAt, hpending]
      exact hcalm
    · simp only [stepsLeft, hphase', hphase]
      omega
  | failing error => rw [hphase] at hcalm; exact hcalm.elim
  | returned r =>
    cases r with
    | failure error => rw [hphase] at hcalm; exact hcalm.elim
    | success =>
      rw [hphase] at h
      simp [work, h.idle slot] at hs'

theorem calm_other (hcalm : Calm s) (env : Go.Surroundings) (m : MsgType)
    (req : List UInt8) (s' : SendState) (hs' : s.other P env m req = some s') :
    Calm s' ∧ s'.stepsLeft P ≤ s.stepsLeft P := by
  simp only [other] at hs'
  split at hs'
  · cases hs'
  · split at hs'
    · cases hs'
    · cases hs'
      exact ⟨hcalm, Nat.le_refl _⟩

theorem calm_step (hP : P.Valid) (hchunks : P.totalChunks ≤ Go.MaxStreamChunks)
    (s : SendState) (a : SendAction) (s' : SendState) (h : Inv P s ∧ Calm s)
    (ha : a.isTimeout = false) (hs' : s.step P a = some s') :
    (Inv P s' ∧ Calm s') ∧
      s'.stepsLeft P + (if a.isSystem then 1 else 0) ≤ s.stepsLeft P := by
  have hinv := inv_step hP s a s' h.1 hs'
  cases a with
  | acquire slot =>
    obtain ⟨hcalm, hle⟩ := calm_acquire hP h.1 slot s' hs'
    exact ⟨⟨hinv, hcalm⟩, hle⟩
  | proceed =>
    obtain ⟨hcalm, hle⟩ := calm_proceed hP hchunks h.1 h.2 s' hs'
    exact ⟨⟨hinv, hcalm⟩, hle⟩
  | work slot env =>
    obtain ⟨hcalm, hle⟩ := calm_work hP h.1 h.2 slot env s' hs'
    exact ⟨⟨hinv, hcalm⟩, hle⟩
  | other env m req =>
    obtain ⟨hcalm, hle⟩ := calm_other h.2 env m req s' hs'
    exact ⟨⟨hinv, hcalm⟩, hle⟩
  | acquireTimeout | timeout => cases ha

theorem Windowed.rotation_free (h : Windowed P s) (hbase : 0 ≤ P.baseSlot)
    (hroom : s.pendingSlots.length < P.maxInFlight) (slot : Nat)
    (hslot : (slot : Int) = P.baseSlot + (s.rr % P.maxInFlight : Nat)) :
    slot ∉ s.pendingSlots := by
  intro hmem
  obtain ⟨j, hj⟩ := List.getElem?_of_mem hmem
  obtain ⟨hrr, hslots⟩ := h.rotation hbase
  have hle := h.pending_le
  obtain ⟨hlt, -⟩ := List.getElem?_eq_some_iff.mp hj
  have hmod : (s.drained + j + 1) % P.maxInFlight = (s.chunkIndex + 1) % P.maxInFlight := by
    have hself := hslots j slot hj
    rw [hrr] at hslot
    omega
  have hzero := Nat.sub_mod_eq_zero_of_mod_eq hmod.symm
  have hgap : s.chunkIndex + 1 - (s.drained + j + 1) < P.maxInFlight := by
    simp only [drained]
    omega
  rw [Nat.mod_eq_of_lt hgap] at hzero
  simp only [drained] at hzero
  omega

theorem exists_acquirable_of_idle (hP : P.Valid)
    (hpool : P.baseSlot < 0 → ∃ slot, slot < P.numSlots ∧ s.slots slot = .idle)
    (hrange : ∀ slot : Nat, 0 ≤ P.baseSlot →
      (slot : Int) = P.baseSlot + (s.rr % P.maxInFlight : Nat) → s.slots slot = .idle) :
    ∃ slot, s.acquirable P slot = true := by
  by_cases hbase : P.baseSlot < 0
  · obtain ⟨slot, hlt, hidle⟩ := hpool hbase
    exact ⟨slot, by simp [acquirable, hlt, hbase, hidle]⟩
  · have hend : P.baseSlot + P.maxInFlight ≤ P.numSlots := by
      cases hP.range with
      | inl hneg => exact absurd hneg hbase
      | inr hle => exact hle
    have hmod := Nat.mod_lt s.rr hP.window_pos
    have hslot : ((P.baseSlot + (s.rr % P.maxInFlight : Nat)).toNat : Int) =
        P.baseSlot + (s.rr % P.maxInFlight : Nat) := Int.toNat_of_nonneg (by omega)
    refine ⟨(P.baseSlot + (s.rr % P.maxInFlight : Nat)).toNat, ?_⟩
    simp only [acquirable, hrange _ (Int.not_lt.mp hbase) hslot, Bool.and_true,
      Bool.and_eq_true, Bool.or_eq_true, decide_eq_true_eq]
    exact ⟨by omega, Or.inr hslot⟩

theorem exists_acquirable (hP : P.Valid) (h : Windowed P s)
    (hroom : s.pendingSlots.length < P.maxInFlight) :
    ∃ slot, s.acquirable P slot = true := by
  apply exists_acquirable_of_idle hP
  · intro _
    obtain ⟨slot, hlt, hfree⟩ := exists_lt_notMem s.pendingSlots P.numSlots
      (Nat.lt_of_lt_of_le hroom hP.slots)
    exact ⟨slot, hlt, h.idle slot hfree⟩
  · intro slot hbase hslot
    exact h.idle slot (h.rotation_free hbase hroom slot hslot)

/-- A call that has not returned can go on, and one that has returned without a
timeout has succeeded. -/
theorem calm_progress (hP : P.Valid) (h : Inv P s) (hcalm : Calm s)
    (hstuck : ∀ a : SendAction, a.isSystem = true → s.step P a = none) :
    s.phase = .returned .success := by
  have hproceed : s.proceed P = none := hstuck .proceed rfl
  have hacquire : ∀ slot, s.acquire P slot = none := fun slot => hstuck (.acquire slot) rfl
  have hwork : ∀ slot env, s.work slot env = none := fun slot env => hstuck (.work slot env) rfl
  have henv : Go.Surroundings := ⟨0, fun n => .replicate n 0⟩
  rw [Inv] at h
  rw [Calm] at hcalm
  cases hphase : s.phase with
  | enter =>
    simp only [proceed, hphase] at hproceed
    split at hproceed <;> cases hproceed
  | start =>
    rw [hphase] at h
    exfalso
    obtain ⟨slot, hslot⟩ := exists_acquirable_of_idle hP
      (fun _ => ⟨0, Nat.lt_of_lt_of_le hP.window_pos hP.slots, h.idle 0⟩)
      (fun slot _ _ => h.idle slot)
    simpa [acquire, hslot, hphase, Nat.not_le.mpr hP.room] using hacquire slot
  | startWait slot =>
    rw [hphase] at h
    exfalso
    cases h.status with
    | inl hpub => simpa [work, hpub.1] using hwork slot henv
    | inr hdone =>
      have hans : ∃ reply, s.slots slot = .answered reply := by
        cases hdone with
        | inl herror => exact ⟨_, herror.1⟩
        | inr hok => exact ⟨_, hok.1⟩
      obtain ⟨reply, hreply⟩ := hans
      simp only [proceed, hphase, hreply] at hproceed
      split at hproceed <;> cases hproceed
  | abortWait slot => rw [hphase] at h; exact h.elim
  | fill =>
    rw [hphase] at h
    exfalso
    cases hfill : s.canFill P with
    | false => simp [proceed, hphase, hfill] at hproceed
    | true =>
      have hroom : s.pendingSlots.length < P.maxInFlight := by
        simp only [canFill, Bool.and_eq_true, decide_eq_true_eq] at hfill
        exact hfill.2
      obtain ⟨slot, hslot⟩ := exists_acquirable hP h hroom
      simpa [acquire, hslot, hphase, hfill] using hacquire slot
  | drain =>
    rw [hphase] at h hcalm
    exfalso
    cases hpending : s.pendingSlots with
    | nil => exact hcalm hpending
    | cons slot rest =>
      cases h.inUse 0 slot (by rw [hpending]; rfl) with
      | inl hans => simp [proceed, hphase, hpending, hans] at hproceed
      | inr hpub => simpa [work, hpub] using hwork slot henv
  | failing error => rw [hphase] at hcalm; exact hcalm.elim
  | returned r =>
    cases r with
    | success => rfl
    | failure error => rw [hphase] at hcalm; exact hcalm.elim

end SendState

end ShmIpc.Stream
