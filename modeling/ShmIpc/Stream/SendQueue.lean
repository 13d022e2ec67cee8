import ShmIpc.Stream.SendLoop

/-!
The sender's slots in each phase of `Send`. Before the first chunk at most the
START's slot is in use; in the loop the queue of pending slots is what the
sender holds, and in a fixed range it is a stretch of the rotation. The measure
counts what is left to publish, to answer and to drain.
-/

namespace ShmIpc.Stream
open Library

namespace SlotUse

/-- The sender has this request to collect. -/
def isHeld : SlotUse → Bool
  | .published _ _ | .answered _ => true
  | _ => false

/-- The guest has this request to answer. -/
def isOpen : SlotUse → Bool
  | .published _ _ | .abandoned _ _ => true
  | _ => false

end SlotUse

namespace AnyCall

variable {C : AnyCall}

/-- The slot that the rotation reaches with the counter at `rr`. -/
def rotated (C : AnyCall) (rr : Nat) : Nat :=
  (C.base + (rr % C.call.maxInFlight : Nat)).toNat

theorem Feasible.window_pos (h : C.Feasible) (hdata : 0 < C.data.length) : 1 ≤ C.inFlight := by
  have hne := List.ne_nil_of_length_pos hdata
  simp only [Feasible] at h
  split at h
  · exact (h.2.resolve_left hne).1
  · exact h.2.resolve_left hne

theorem Feasible.slots_pos (h : C.Feasible) (hpool : C.base < 0) : 1 ≤ C.numSlots := by
  rw [Feasible, if_pos hpool] at h
  exact h.1

theorem Feasible.pool (h : C.Feasible) (hpool : C.base < 0) (hdata : 0 < C.data.length) :
    min (C.call.totalChunks : Int) C.inFlight ≤ C.numSlots := by
  rw [Feasible, if_pos hpool] at h
  exact (h.2.resolve_left (List.ne_nil_of_length_pos hdata)).2

theorem Feasible.modulus (h : C.Feasible) (hrange : ¬ C.base < 0) : C.inFlight ≠ 0 := by
  rw [Feasible, if_neg hrange] at h
  exact h.1

end AnyCall

namespace SendLoop

variable {C : AnyCall} {t : SendState}

/-! ### The sender's slots, phase by phase -/

structure Fresh (C : AnyCall) (t : SendState) : Prop where
  remaining : t.remaining = C.data.length
  chunkIndex : t.chunkIndex = 0
  rr : t.rr = 0
  pendingSlots : t.pendingSlots = []
  idle : ∀ slot, t.slots slot = .idle

structure Started (C : AnyCall) (t : SendState) (slot : Nat) : Prop where
  remaining : t.remaining = C.data.length
  chunkIndex : t.chunkIndex = 0
  rr : 0 ≤ C.base → t.rr = 1
  pendingSlots : t.pendingSlots = []
  valid : slot < C.numSlots
  held : (t.slots slot).isHeld = true
  idle : ∀ slot', slot' ≠ slot → t.slots slot' = .idle

structure Held (C : AnyCall) (t : SendState) : Prop where
  nodup : t.pendingSlots.Nodup
  valid : ∀ slot ∈ t.pendingSlots, slot < C.numSlots
  held : ∀ slot ∈ t.pendingSlots, (t.slots slot).isHeld = true

structure Queued (C : AnyCall) (t : SendState) : Prop extends Held C t where
  pending_le : t.pendingSlots.length ≤ t.chunkIndex
  sent_le : t.chunkIndex ≤ C.call.totalChunks
  remaining : t.remaining = C.data.length - t.chunkIndex * C.call.maxPayload
  idle : ∀ slot, slot ∉ t.pendingSlots → t.slots slot = .idle
  rotation : 0 ≤ C.base → t.rr = t.chunkIndex + 1 ∧ t.pendingSlots =
    (List.range' (t.chunkIndex - t.pendingSlots.length + 1) t.pendingSlots.length).map C.rotated

def Shape (C : AnyCall) (t : SendState) : SendPhase → Prop
  | .enter | .start => Fresh C t
  | .startWait slot => Started C t slot
  | .abortWait _ => False
  | .fill => Queued C t ∧ (0 < t.remaining ∨ t.pendingSlots ≠ [])
  | .drain => Queued C t ∧ t.pendingSlots ≠ []
  | .failing _ => Held C t
  | .returned _ => True

theorem Held.tail (h : Held C t) {slot : Nat} {rest : List Nat}
    (hpending : t.pendingSlots = slot :: rest) (u : SlotUse) :
    Held C { t.setSlot slot u with pendingSlots := rest } := by
  have hnodup := h.nodup
  rw [hpending, List.nodup_cons] at hnodup
  refine ⟨hnodup.2, fun slot' hmem =>
    h.valid slot' (hpending ▸ List.mem_cons_of_mem slot hmem), ?_⟩
  intro slot' hmem
  have hne : slot' ≠ slot := fun heq => hnodup.1 (heq ▸ hmem)
  simp only [SendState.setSlot, Function.update_of_ne hne]
  exact h.held slot' (hpending ▸ List.mem_cons_of_mem slot hmem)

theorem Held.answered (h : Held C t) (slot : Nat) (reply : MsgType) :
    Held C (t.setSlot slot (.answered reply)) := by
  refine ⟨h.nodup, h.valid, ?_⟩
  intro slot' hmem
  by_cases heq : slot' = slot
  · simp only [SendState.setSlot, heq, Function.update_self, SlotUse.isHeld]
  · simp only [SendState.setSlot, Function.update_of_ne heq]
    exact h.held slot' hmem

theorem Held.notMem_of_acquirable (h : Held C t) (slot : Nat)
    (hslot : t.acquirable C.call slot = true) : slot ∉ t.pendingSlots := by
  intro hmem
  have hheld := h.held slot hmem
  simp only [SendState.acquirable, Bool.and_eq_true] at hslot
  cases huse : t.slots slot <;> simp [huse, SlotUse.isHeld] at hslot hheld

theorem Queued.rotated_notMem (h : Queued C t) (hbase : 0 ≤ C.base)
    (hroom : t.pendingSlots.length < C.call.maxInFlight) :
    C.rotated t.rr ∉ t.pendingSlots := by
  obtain ⟨hrr, hslots⟩ := h.rotation hbase
  have hle := h.pending_le
  intro hmem
  rw [hslots, hrr] at hmem
  obtain ⟨i, hi, heq⟩ := List.mem_map.mp hmem
  rw [List.mem_range'_1] at hi
  have hmod : (t.chunkIndex + 1) % C.call.maxInFlight = i % C.call.maxInFlight := by
    simp only [AnyCall.rotated] at heq
    omega
  have hzero := Nat.sub_mod_eq_zero_of_mod_eq hmod
  rw [Nat.mod_eq_of_lt (by omega)] at hzero
  omega

theorem Queued.published (hC : C.call.Sized) (h : Queued C t) (slot : Nat)
    (hslot : t.acquirable C.call slot = true) (hfill : t.canFill C.call = true) :
    Queued C (t.published C.call slot (t.advance C.call).rr) := by
  obtain ⟨hpos, -⟩ := SendState.canFill_iff.mp hfill
  have hle := h.pending_le
  have hn := hC.totalChunks_le
  have hlt : t.chunkIndex < C.call.totalChunks :=
    (hC.lt_totalChunks _).mpr (by have := h.remaining; simp only [AnyCall.call] at *; omega)
  have hnew := h.notMem_of_acquirable slot hslot
  simp only [SendState.acquirable, Bool.and_eq_true, Bool.or_eq_true, decide_eq_true_eq] at hslot
  refine ⟨⟨?_, ?_, ?_⟩, ?_, hlt, rfl, ?_, ?_⟩
  · exact List.nodup_append.mpr ⟨h.nodup, by simp, fun a ha b hb heq =>
      hnew (List.mem_singleton.mp hb ▸ heq ▸ ha)⟩
  · intro slot' hmem
    cases List.mem_append.mp hmem with
    | inl hold => exact h.valid slot' hold
    | inr hlast => exact List.mem_singleton.mp hlast ▸ hslot.1.1
  · intro slot' hmem
    cases List.mem_append.mp hmem with
    | inl hold =>
      have hne : slot' ≠ slot := fun heq => hnew (heq ▸ hold)
      simp only [SendState.published, Function.update_of_ne hne]
      exact h.held slot' hold
    | inr hlast =>
      simp only [SendState.published, List.mem_singleton.mp hlast, Function.update_self,
        SlotUse.isHeld]
  · simp only [SendState.published, List.length_append, List.length_singleton]
    omega
  · intro slot' hmem
    simp only [SendState.published, List.mem_append, List.mem_singleton, not_or] at hmem ⊢
    rw [Function.update_of_ne hmem.2]
    exact h.idle slot' hmem.1
  · intro hbase
    obtain ⟨hrr, hslots⟩ := h.rotation hbase
    have hnot : ¬ C.call.baseSlot < 0 := Int.not_lt.mpr hbase
    have hself : C.rotated (t.chunkIndex + 1) = slot := by
      have heq := hslot.1.2.resolve_left hnot
      simp only [AnyCall.rotated, ← hrr]
      simp only [AnyCall.call] at heq ⊢
      omega
    constructor
    · simp only [SendState.published, SendState.advance, if_neg hnot, hrr]
      exact Nat.mod_eq_of_lt (by omega)
    · have hfirst : t.chunkIndex + 1 - (t.pendingSlots.length + 1) + 1 =
          t.chunkIndex - t.pendingSlots.length + 1 := by omega
      have hlast : t.chunkIndex - t.pendingSlots.length + 1 + t.pendingSlots.length =
          t.chunkIndex + 1 := by omega
      simp only [SendState.published, List.length_append, List.length_singleton, hfirst]
      rw [List.range'_1_concat, List.map_append, ← hslots, hlast, List.map_singleton, hself]

theorem Queued.tail (h : Queued C t) {slot : Nat} {rest : List Nat}
    (hpending : t.pendingSlots = slot :: rest) :
    Queued C { t.setSlot slot .idle with pendingSlots := rest } := by
  have hle := h.pending_le
  rw [hpending, List.length_cons] at hle
  refine ⟨h.toHeld.tail hpending .idle, by simp only [SendState.setSlot]; omega, h.sent_le,
    h.remaining, ?_, ?_⟩
  · intro slot' hmem
    by_cases heq : slot' = slot
    · simp only [SendState.setSlot, heq, Function.update_self]
    · simp only [SendState.setSlot, Function.update_of_ne heq]
      exact h.idle slot' (by rw [hpending, List.mem_cons]; exact not_or.mpr ⟨heq, hmem⟩)
  · intro hbase
    obtain ⟨hrr, hslots⟩ := h.rotation hbase
    refine ⟨hrr, ?_⟩
    rw [hpending, List.length_cons, List.range'_succ, List.map_cons, List.cons.injEq] at hslots
    have hfirst : t.chunkIndex - (rest.length + 1) + 1 + 1 = t.chunkIndex - rest.length + 1 := by
      omega
    rw [hfirst] at hslots
    exact hslots.2

theorem Queued.withPhase (h : Queued C t) (phase : SendPhase) :
    Queued C { t with phase := phase } :=
  ⟨⟨h.nodup, h.valid, h.held⟩, h.pending_le, h.sent_le, h.remaining, h.idle, h.rotation⟩

theorem Queued.answered (h : Queued C t) (slot : Nat) (reply : MsgType)
    (hmem : slot ∈ t.pendingSlots) : Queued C (t.setSlot slot (.answered reply)) := by
  refine ⟨h.toHeld.answered slot reply, h.pending_le, h.sent_le, h.remaining, ?_, h.rotation⟩
  intro slot' hnot
  have hne : slot' ≠ slot := fun heq => hnot (heq ▸ hmem)
  simp only [SendState.setSlot, Function.update_of_ne hne]
  exact h.idle slot' hnot

theorem Started.queued {slot : Nat} (h : Started C t slot) : Queued C (t.setSlot slot .idle) := by
  have hidle : ∀ slot', (t.setSlot slot .idle).slots slot' = .idle := by
    intro slot'
    by_cases heq : slot' = slot
    · simp only [SendState.setSlot, heq, Function.update_self]
    · simp only [SendState.setSlot, Function.update_of_ne heq]
      exact h.idle slot' heq
  have hpending : (t.setSlot slot .idle).pendingSlots = [] := h.pendingSlots
  have hindex : (t.setSlot slot .idle).chunkIndex = 0 := h.chunkIndex
  refine ⟨⟨?_, ?_, ?_⟩, ?_, ?_, ?_, fun slot' _ => hidle slot', fun hbase => ⟨?_, ?_⟩⟩
  · rw [hpending]
    exact List.nodup_nil
  · intro slot' hmem
    rw [hpending] at hmem
    cases hmem
  · intro slot' hmem
    rw [hpending] at hmem
    cases hmem
  · rw [hpending]
    exact Nat.zero_le _
  · rw [hindex]
    exact Nat.zero_le _
  · rw [hindex, Nat.zero_mul]
    exact h.remaining
  · rw [hindex]
    exact h.rr hbase
  · rw [hpending]
    rfl

/-! ### The count of what is left -/

def openSlots (C : AnyCall) (slots : Nat → SlotUse) : Nat :=
  (List.range C.numSlots).countP fun slot => (slots slot).isOpen

theorem openSlots_update (slots : Nat → SlotUse) (slot : Nat) (u : SlotUse)
    (hslot : slot < C.numSlots) :
    openSlots C (Function.update slots slot u) + (if (slots slot).isOpen then 1 else 0) =
      openSlots C slots + (if u.isOpen then 1 else 0) :=
  countP_update_of_mem (List.range C.numSlots) SlotUse.isOpen slots slot u List.nodup_range
    (List.mem_range.mpr hslot)

theorem openSlots_update_eq (slots : Nat → SlotUse) (slot : Nat) (u : SlotUse)
    (hopen : u.isOpen = (slots slot).isOpen) :
    openSlots C (Function.update slots slot u) = openSlots C slots := by
  simp only [openSlots]
  apply List.countP_congr
  intro slot' _
  by_cases heq : slot' = slot
  · rw [heq, Function.update_self, hopen]
  · rw [Function.update_of_ne heq]

def phaseWeight : SendPhase → Nat
  | .enter => 7
  | .start => 6
  | .startWait _ | .abortWait _ => 3
  | .fill | .failing _ => 1
  | .drain | .returned _ => 0

/-- A chunk still to come is worth its two steps of acquisition, its answer and
its drain; the drain also pays for the round of the outer loop it ends. -/
def load (C : AnyCall) (t : SendState) : Nat :=
  6 * (C.call.totalChunks - t.chunkIndex) + 3 * t.pendingSlots.length + openSlots C t.slots

def stepsLeft (C : AnyCall) (s : SendLoop) : Nat :=
  load C s.send + phaseWeight s.send.phase + (if s.pc = .inside then 0 else 1) +
    (if s.running then 1 else 0)

end SendLoop

end ShmIpc.Stream
