import ShmIpc.Stream.Window

/-!
The fill and drain loop of a sender. While it runs, the queue of pending slots
is a run of consecutive chunks: those below it have run, each slot in it holds
its chunk or the reply to it, and nothing beyond it exists yet. One lemma per
step keeps this description.
-/

namespace ShmIpc.Stream
open Library

namespace SendState

/-- The callbacks of this stream so far. -/
def mine (P : SendCall) (s : SendState) : List Delivery :=
  s.delivered.filter fun d => d.streamId = P.streamId

/-- How many chunks have left the window. -/
def drained (s : SendState) : Nat := s.chunkIndex - s.pendingSlots.length

/-- Chunk `i` has run: it left the window or its slot holds the reply. -/
def Ran (s : SendState) (i : Nat) : Prop :=
  i < s.drained ∨ s.drained ≤ i ∧ ∃ slot, s.pendingSlots[i - s.drained]? = some slot ∧
    s.slots slot = .answered .normal

structure Windowed (P : SendCall) (s : SendState) : Prop where
  pending_le : s.pendingSlots.length ≤ s.chunkIndex
  window : s.pendingSlots.length ≤ P.maxInFlight
  sent_le : s.chunkIndex ≤ P.totalChunks
  remaining : s.remaining = P.data.length - s.chunkIndex * P.maxPayload
  nodup : s.pendingSlots.Nodup
  idle : ∀ slot, slot ∉ s.pendingSlots → s.slots slot = .idle
  inUse : ∀ j slot, s.pendingSlots[j]? = some slot → s.slots slot = .answered .normal ∨
    s.slots slot = .published .streamChunk (P.chunk (s.drained + j))
  rotation : 0 ≤ P.baseSlot → s.rr = s.chunkIndex + 1 ∧
    ∀ j (slot : Nat), s.pendingSlots[j]? = some slot →
      (slot : Int) = P.baseSlot + ((s.drained + j + 1) % P.maxInFlight : Nat)
  guest : GuestHolds P s.Ran s.guest (s.mine P)

end SendState

theorem GuestHolds.congr {P : SendCall} {ran ran' : Nat → Prop} {g : Go.Reassembler}
    {mine : List Delivery} (h : GuestHolds P ran g mine) (hran : ∀ i, ran' i ↔ ran i) :
    GuestHolds P ran' g mine := by
  rw [show ran' = ran from funext fun i => propext (hran i)]
  exact h

theorem GuestHolds.frame {P : SendCall} {ran : Nat → Prop} {g g' : Go.Reassembler}
    {mine : List Delivery} (h : GuestHolds P ran g mine) (hq : g'.Quiet)
    (hflight : g'.inFlight P.streamId = g.inFlight P.streamId) :
    GuestHolds P ran g' mine := by
  refine ⟨hq, ?_, ?_⟩
  · intro hall
    exact ⟨hflight.trans (h.complete hall).1, (h.complete hall).2⟩
  · intro hsome
    obtain ⟨hnone, initial, W, c, hc, hrest⟩ := h.partly hsome
    exact ⟨hnone, initial, W, c, hflight.trans hc, hrest⟩

theorem GuestHolds.filter_mine {P : SendCall} {ran : Nat → Prop} {g : Go.Reassembler}
    {mine : List Delivery} (h : GuestHolds P ran g mine) :
    mine.filter (fun d => d.streamId = P.streamId) = mine := by
  by_cases hall : ∀ i, i < P.totalChunks → ran i
  · rw [(h.complete hall).2]
    simp [SendCall.wholeStream]
  · rw [(h.partly hall).1]
    rfl

namespace SendState

variable {P : SendCall} {s : SendState}

theorem Windowed.withPhase (h : Windowed P s) (phase : SendPhase) :
    Windowed P { s with phase := phase } :=
  ⟨h.pending_le, h.window, h.sent_le, h.remaining, h.nodup, h.idle, h.inUse, h.rotation, h.guest⟩

theorem Windowed.ran_lt (h : Windowed P s) (i : Nat) (hi : s.Ran i) : i < s.chunkIndex := by
  have hle := h.pending_le
  cases hi with
  | inl hlow =>
    simp only [drained] at hlow
    omega
  | inr hin =>
    obtain ⟨hge, slot, hslot, -⟩ := hin
    obtain ⟨hlt, -⟩ := List.getElem?_eq_some_iff.mp hslot
    simp only [drained] at hge hlt
    omega

theorem Windowed.notMem_of_acquirable (h : Windowed P s) (slot : Nat)
    (hslot : s.acquirable P slot = true) : slot ∉ s.pendingSlots := by
  intro hmem
  obtain ⟨j, hj⟩ := List.getElem?_of_mem hmem
  simp only [acquirable, Bool.and_eq_true] at hslot
  cases h.inUse j slot hj with
  | inl hans => simp [hans] at hslot
  | inr hpub => simp [hpub] at hslot

theorem getElem?_ne_of_notMem {l : List Nat} {x y : Nat} {j : Nat} (hx : x ∉ l)
    (hj : l[j]? = some y) : y ≠ x :=
  fun h => hx (h ▸ List.mem_of_getElem? hj)

/-- The state after chunk `s.chunkIndex` went out on `slot`. -/
def published (P : SendCall) (s : SendState) (slot rr : Nat) : SendState :=
  { s with
    rr := rr
    slots := Function.update s.slots slot (.published .streamChunk (P.chunk s.chunkIndex))
    pendingSlots := s.pendingSlots ++ [slot]
    remaining := P.data.length - (s.chunkIndex + 1) * P.maxPayload
    chunkIndex := s.chunkIndex + 1 }

theorem drained_published (slot rr : Nat) : (s.published P slot rr).drained = s.drained := by
  simp only [published, drained, List.length_append, List.length_singleton]
  omega

theorem getElem?_append_one {l : List Nat} {x y j : Nat} (h : (l ++ [x])[j]? = some y) :
    l[j]? = some y ∨ j = l.length ∧ y = x := by
  by_cases hj : j < l.length
  · rw [List.getElem?_append_left hj] at h
    exact Or.inl h
  · rw [List.getElem?_append_right (by omega), List.getElem?_singleton] at h
    split at h
    · cases h
      exact Or.inr ⟨by omega, rfl⟩
    · cases h

theorem ran_published (slot rr : Nat) (hnew : slot ∉ s.pendingSlots) (i : Nat) :
    (s.published P slot rr).Ran i ↔ s.Ran i := by
  simp only [Ran, drained_published]
  constructor
  · intro hi
    cases hi with
    | inl hlow => exact Or.inl hlow
    | inr hin =>
      obtain ⟨hge, slot', hslot', hans⟩ := hin
      cases getElem?_append_one hslot' with
      | inl hold =>
        simp only [published, Function.update_of_ne (getElem?_ne_of_notMem hnew hold)]
          at hans
        exact Or.inr ⟨hge, slot', hold, hans⟩
      | inr hlast =>
        simp only [published, hlast.2, Function.update_self] at hans
        cases hans
  · intro hi
    cases hi with
    | inl hlow => exact Or.inl hlow
    | inr hin =>
      obtain ⟨hge, slot', hslot', hans⟩ := hin
      obtain ⟨hlt, -⟩ := List.getElem?_eq_some_iff.mp hslot'
      refine Or.inr ⟨hge, slot', ?_, ?_⟩
      · simp only [published]
        rw [List.getElem?_append_left hlt]
        exact hslot'
      · simp only [published, Function.update_of_ne (getElem?_ne_of_notMem hnew hslot')]
        exact hans

theorem windowed_published (h : Windowed P s) (slot rr : Nat)
    (hnew : slot ∉ s.pendingSlots) (hlt : s.chunkIndex < P.totalChunks)
    (hroom : s.pendingSlots.length < P.maxInFlight)
    (hrr : 0 ≤ P.baseSlot → rr = s.chunkIndex + 2 ∧
      (slot : Int) = P.baseSlot + ((s.chunkIndex + 1) % P.maxInFlight : Nat)) :
    Windowed P (s.published P slot rr) where
  pending_le := by
    have hle := h.pending_le
    simp only [published, List.length_append, List.length_singleton]
    omega
  window := by
    simp only [published, List.length_append, List.length_singleton]
    omega
  sent_le := hlt
  remaining := rfl
  nodup := by
    simp only [published]
    rw [List.nodup_append]
    refine ⟨h.nodup, by simp, ?_⟩
    intro a ha b hb
    rw [List.mem_singleton.mp hb]
    exact fun heq => hnew (heq ▸ ha)
  idle := by
    intro slot' hslot'
    simp only [published, List.mem_append, List.mem_singleton, not_or] at hslot' ⊢
    rw [Function.update_of_ne hslot'.2]
    exact h.idle slot' hslot'.1
  inUse := by
    intro j slot' hslot'
    rw [drained_published]
    cases getElem?_append_one hslot' with
    | inl hold =>
      simp only [published, Function.update_of_ne (getElem?_ne_of_notMem hnew hold)]
      exact h.inUse j slot' hold
    | inr hlast =>
      have hle := h.pending_le
      have hidx : s.drained + j = s.chunkIndex := by
        simp only [drained, hlast.1]
        omega
      simp only [published, hlast.2, Function.update_self, hidx]
      exact Or.inr trivial
  rotation := by
    intro hbase
    obtain ⟨hrr', hslot⟩ := hrr hbase
    refine ⟨hrr', ?_⟩
    intro j slot' hslot'
    rw [drained_published]
    cases getElem?_append_one hslot' with
    | inl hold => exact (h.rotation hbase).2 j slot' hold
    | inr hlast =>
      have hle := h.pending_le
      have hidx : s.drained + j + 1 = s.chunkIndex + 1 := by
        simp only [drained, hlast.1]
        omega
      rw [hlast.2, hidx]
      exact hslot
  guest := h.guest.congr (ran_published slot rr hnew)

theorem sendChunk_eq (hP : P.Sized)
    (hrem : s.remaining = P.data.length - s.chunkIndex * P.maxPayload)
    (hpos : 0 < s.remaining) (slot : Nat) :
    (s.advance P).sendChunk P slot = s.published P slot (s.advance P).rr := by
  have hn := hP.totalChunks_le
  have hlt : s.chunkIndex < P.totalChunks := (hP.lt_totalChunks _).mpr (by omega)
  have hcur : P.currentChunkSize s.remaining = min P.maxPayload s.remaining := by
    simp only [SendCall.currentChunkSize]
    split <;> omega
  have hfits : ¬ chunkHeaderSize + P.currentChunkSize s.remaining > P.maxReqSize := by
    have hroom := hP.room
    rw [hcur]
    simp only [SendCall.maxPayload]
    omega
  have hwrap : (s.chunkIndex + 1) % 2 ^ 32 = s.chunkIndex + 1 := Nat.mod_eq_of_lt (by omega)
  have hleft : s.remaining - P.currentChunkSize s.remaining =
      P.data.length - (s.chunkIndex + 1) * P.maxPayload := by
    rw [hcur, Nat.succ_mul]
    omega
  simp only [sendChunk, advance, setSlot, published, if_neg hfits, hwrap, hleft]
  rw [SendCall.chunk, ← hrem]

theorem canFill_iff : s.canFill P = true ↔
    0 < s.remaining ∧ s.pendingSlots.length < P.maxInFlight := by
  simp only [canFill, Bool.and_eq_true, decide_eq_true_eq, gt_iff_lt]

theorem windowed_sendChunk (hP : P.Valid) (h : Windowed P s) (hfill : s.canFill P = true)
    (slot : Nat) (hslot : s.acquirable P slot = true) :
    Windowed P ((s.advance P).sendChunk P slot) := by
  rw [sendChunk_eq hP.sized h.remaining (canFill_iff.mp hfill).1 slot]
  have hnew := h.notMem_of_acquirable slot hslot
  simp only [canFill, Bool.and_eq_true, decide_eq_true_eq] at hfill
  have hrem := h.remaining
  have hn := hP.sized.totalChunks_le
  have hlt : s.chunkIndex < P.totalChunks := (hP.sized.lt_totalChunks _).mpr (by omega)
  refine windowed_published h slot _ hnew hlt hfill.2 ?_
  intro hbase
  obtain ⟨hrr, -⟩ := h.rotation hbase
  simp only [acquirable, Bool.and_eq_true, Bool.or_eq_true, decide_eq_true_eq] at hslot
  have hnot : ¬ P.baseSlot < 0 := by omega
  refine ⟨?_, ?_⟩
  · simp only [advance, if_neg hnot, hrr]
    exact Nat.mod_eq_of_lt (by omega)
  · cases hslot.1.2 with
    | inl hneg => exact absurd hneg hnot
    | inr heq => rw [heq, hrr]

/-- The state after the worker of `slot` has answered. -/
def answeredAt (s : SendState) (slot : Nat) (guest : Go.Reassembler)
    (delivered : List Delivery) : SendState :=
  { s with
    guest := guest
    delivered := delivered
    slots := Function.update s.slots slot (.answered .normal) }

theorem ran_answeredAt (h : Windowed P s) (slot j : Nat) (hj : s.pendingSlots[j]? = some slot)
    (guest : Go.Reassembler) (delivered : List Delivery) (i : Nat) :
    (s.answeredAt slot guest delivered).Ran i ↔ s.Ran i ∨ i = s.drained + j := by
  have hunique : ∀ j', s.pendingSlots[j']? = some slot → j' = j := by
    intro j' hj'
    obtain ⟨hlt, hget⟩ := List.getElem?_eq_some_iff.mp hj
    obtain ⟨hlt', hget'⟩ := List.getElem?_eq_some_iff.mp hj'
    exact (List.Nodup.getElem_inj_iff h.nodup).mp (hget'.trans hget.symm)
  constructor
  · intro hi
    cases hi with
    | inl hlow => exact Or.inl (Or.inl hlow)
    | inr hin =>
      obtain ⟨hge, slot', hslot', hans⟩ := hin
      simp only [answeredAt, drained] at hge hslot'
      by_cases heq : slot' = slot
      · have hpos := hunique _ (heq ▸ hslot')
        right
        simp only [drained]
        omega
      · simp only [answeredAt, Function.update_of_ne heq] at hans
        exact Or.inl (Or.inr ⟨hge, slot', hslot', hans⟩)
  · intro hi
    cases hi with
    | inl hold =>
      cases hold with
      | inl hlow => exact Or.inl hlow
      | inr hin =>
        obtain ⟨hge, slot', hslot', hans⟩ := hin
        refine Or.inr ⟨hge, slot', hslot', ?_⟩
        by_cases heq : slot' = slot
        · simp only [answeredAt, heq, Function.update_self]
        · simp only [answeredAt, Function.update_of_ne heq]
          exact hans
    | inr hself =>
      subst hself
      refine Or.inr ⟨Nat.le_add_right _ _, slot, ?_, ?_⟩
      · have hsub : s.drained + j - (s.answeredAt slot guest delivered).drained = j :=
          Nat.add_sub_cancel_left _ _
        rw [hsub]
        exact hj
      · simp only [answeredAt, Function.update_self]

theorem windowed_answeredAt (h : Windowed P s) (slot j : Nat)
    (hj : s.pendingSlots[j]? = some slot) (guest : Go.Reassembler) (delivered : List Delivery)
    (hguest : GuestHolds P (fun i => s.Ran i ∨ i = s.drained + j) guest
      (delivered.filter fun d => d.streamId = P.streamId)) :
    Windowed P (s.answeredAt slot guest delivered) where
  pending_le := h.pending_le
  window := h.window
  sent_le := h.sent_le
  remaining := h.remaining
  nodup := h.nodup
  idle := by
    intro slot' hslot'
    have hne : slot' ≠ slot := by
      intro heq
      rw [heq] at hslot'
      exact hslot' (List.mem_of_getElem? hj)
    simp only [answeredAt, Function.update_of_ne hne]
    exact h.idle slot' hslot'
  inUse := by
    intro j' slot' hslot'
    by_cases heq : slot' = slot
    · left
      simp only [answeredAt, heq, Function.update_self]
    · simp only [answeredAt, Function.update_of_ne heq]
      exact h.inUse j' slot' hslot'
  rotation := h.rotation
  guest := hguest.congr (ran_answeredAt h slot j hj guest delivered)

theorem windowed_work (hP : P.Valid) (h : Windowed P s) (slot : Nat) (env : Go.Surroundings)
    (s' : SendState) (hs' : s.work slot env = some s') :
    Windowed P s' ∧ (∃ (j : Nat) (msg : List UInt8), s.pendingSlots[j]? = some slot ∧
      s.slots slot = .published .streamChunk msg) ∧
      ∃ guest delivered, s' = s.answeredAt slot guest delivered := by
  by_cases hmem : slot ∈ s.pendingSlots
  · obtain ⟨j, hj⟩ := List.getElem?_of_mem hmem
    cases h.inUse j slot hj with
    | inl hans => simp [work, hans] at hs'
    | inr hpub =>
      have hle := h.pending_le
      have hwin := h.window
      have hwin' := hP.window_le
      have hsent := h.sent_le
      obtain ⟨hlt, -⟩ := List.getElem?_eq_some_iff.mp hj
      have hidx : s.drained + j < s.chunkIndex := by
        simp only [drained]
        omega
      have hnew : ¬ s.Ran (s.drained + j) := by
        intro hran
        cases hran with
        | inl hlow => omega
        | inr hin =>
          obtain ⟨-, slot', hslot', hans⟩ := hin
          rw [Nat.add_sub_cancel_left, hj] at hslot'
          cases hslot'
          rw [hpub] at hans
          cases hans
      obtain ⟨hreply, hholds⟩ := guestHolds_chunk hP h.guest (Nat.lt_of_lt_of_le hidx hsent)
        hnew h.ran_lt (fun i hi => Or.inl hi) (by simp only [drained]; omega) hidx
      have hfilter : mine P s ++ (s.guest.handleChunk
          (P.chunk (s.drained + j))).2.delivered.toList =
          (s.delivered ++ (s.guest.handleChunk
            (P.chunk (s.drained + j))).2.delivered.toList).filter
            fun d => d.streamId = P.streamId := by
        rw [← hholds.filter_mine, List.filter_append, List.filter_append, mine,
          List.filter_filter]
        simp only [Bool.and_self]
      rw [hfilter] at hholds
      have heq : s' = s.answeredAt slot (s.guest.handleChunk (P.chunk (s.drained + j))).1
          (s.delivered ++ (s.guest.handleChunk
            (P.chunk (s.drained + j))).2.delivered.toList) := by
        simp only [work, hpub, handle, Go.Reassembler.handler, Option.map_some, hreply,
          Option.getD_some, Option.bind_some, Option.some.injEq] at hs'
        exact hs'.symm
      rw [heq]
      exact ⟨windowed_answeredAt h slot j hj _ _ hholds, ⟨j, _, hj, hpub⟩, _, _, rfl⟩
  · simp [work, h.idle slot hmem] at hs'

/-- The state after the reply of the oldest chunk was consumed. -/
def popped (s : SendState) (slot : Nat) (rest : List Nat) : SendState :=
  { s with slots := Function.update s.slots slot .idle, pendingSlots := rest }

theorem drained_popped (h : Windowed P s) (slot : Nat) (rest : List Nat)
    (hpending : s.pendingSlots = slot :: rest) :
    (s.popped slot rest).drained = s.drained + 1 := by
  have hle := h.pending_le
  rw [hpending, List.length_cons] at hle
  simp only [popped, drained, hpending, List.length_cons]
  omega

theorem ran_popped (h : Windowed P s) (slot : Nat) (rest : List Nat)
    (hpending : s.pendingSlots = slot :: rest) (hans : s.slots slot = .answered .normal)
    (i : Nat) : (s.popped slot rest).Ran i ↔ s.Ran i := by
  have hnodup := h.nodup
  rw [hpending, List.nodup_cons] at hnodup
  have hrest : ∀ (j slot' : Nat), rest[j]? = some slot' →
      (s.popped slot rest).slots slot' = s.slots slot' := by
    intro j slot' hslot'
    exact Function.update_of_ne (getElem?_ne_of_notMem hnodup.1 hslot') _ _
  have htail : ∀ k : Nat, s.drained + 1 ≤ k →
      s.pendingSlots[k - s.drained]? = rest[k - (s.drained + 1)]? := by
    intro k hk
    rw [hpending, show k - s.drained = k - (s.drained + 1) + 1 by omega,
      List.getElem?_cons_succ]
  have hhead : s.Ran s.drained :=
    Or.inr ⟨Nat.le_refl _, slot, by rw [hpending, Nat.sub_self]; rfl, hans⟩
  simp only [Ran, drained_popped h slot rest hpending]
  constructor
  · intro hi
    cases hi with
    | inl hlow =>
      by_cases heq : i = s.drained
      · rw [heq]
        exact hhead
      · exact Or.inl (by omega)
    | inr hin =>
      obtain ⟨hge, slot', hslot', hans'⟩ := hin
      rw [hrest _ slot' hslot'] at hans'
      exact Or.inr ⟨by omega, slot', by rw [htail i hge]; exact hslot', hans'⟩
  · intro hi
    by_cases hlow : i < s.drained + 1
    · exact Or.inl hlow
    · cases hi with
      | inl hlt => exact Or.inl (by omega)
      | inr hin =>
        obtain ⟨hge, slot', hslot', hans'⟩ := hin
        rw [htail i (by omega)] at hslot'
        exact Or.inr ⟨by omega, slot', hslot', by rw [hrest _ slot' hslot']; exact hans'⟩

theorem windowed_popped (h : Windowed P s) (slot : Nat) (rest : List Nat)
    (hpending : s.pendingSlots = slot :: rest) (hans : s.slots slot = .answered .normal) :
    Windowed P (s.popped slot rest) := by
  have hnodup := h.nodup
  have hle := h.pending_le
  have hwin := h.window
  rw [hpending, List.nodup_cons] at hnodup
  rw [hpending, List.length_cons] at hle hwin
  have hcons : ∀ (j slot' : Nat), rest[j]? = some slot' →
      s.pendingSlots[j + 1]? = some slot' := by
    intro j slot' hslot'
    rw [hpending, List.getElem?_cons_succ]
    exact hslot'
  refine
    { pending_le := by simp only [popped]; omega
      window := by simp only [popped]; omega
      sent_le := h.sent_le
      remaining := h.remaining
      nodup := hnodup.2
      idle := ?_
      inUse := ?_
      rotation := ?_
      guest := h.guest.congr (ran_popped h slot rest hpending hans) }
  · intro slot' hslot'
    by_cases heq : slot' = slot
    · simp only [popped, heq, Function.update_self]
    · simp only [popped, Function.update_of_ne heq]
      refine h.idle slot' ?_
      rw [hpending, List.mem_cons, not_or]
      exact ⟨heq, hslot'⟩
  · intro j slot' hslot'
    have hne := getElem?_ne_of_notMem hnodup.1 hslot'
    rw [drained_popped h slot rest hpending, show s.drained + 1 + j = s.drained + (j + 1) by omega]
    simp only [popped, Function.update_of_ne hne]
    exact h.inUse (j + 1) slot' (hcons j slot' hslot')
  · intro hbase
    obtain ⟨hrr, hslots⟩ := h.rotation hbase
    refine ⟨hrr, ?_⟩
    intro j slot' hslot'
    rw [drained_popped h slot rest hpending, show s.drained + 1 + j = s.drained + (j + 1) by omega]
    exact hslots (j + 1) slot' (hcons j slot' hslot')

theorem other_frame (hq : s.guest.Quiet) (env : Go.Surroundings) (m : MsgType)
    (req : List UInt8) (s' : SendState) (hs' : s.other P env m req = some s') :
    s'.guest.Quiet ∧ s'.guest.inFlight P.streamId = s.guest.inFlight P.streamId ∧
      s'.mine P = s.mine P ∧
      ∃ guest delivered, s' = { s with guest := guest, delivered := delivered } := by
  simp only [other] at hs'
  split at hs'
  · cases hs'
  · next haddr =>
      split at hs'
      · cases hs'
      · next hkept =>
          cases hs'
          obtain ⟨hstep, hquiet⟩ := Go.Reassembler.handler_step s.guest env m req hq
          obtain ⟨hflight, hdel⟩ := step_other hstep (Bool.eq_false_iff.mpr haddr)
          refine ⟨hquiet, ?_, ?_, _, _, rfl⟩
          · cases hflight with
            | inl hsame => exact hsame
            | inr hgone =>
              simp only [handle, ← Go.Reassembler.inFlight_isSome hq,
                ← Go.Reassembler.inFlight_isSome hquiet, hgone] at hkept ⊢
              cases hs : s.guest.inFlight P.streamId with
              | none => rfl
              | some c => simp [hs] at hkept
          · simp only [mine, handle, List.filter_append]
            cases hout : (s.guest.handler env m req).2.bind Answer.delivered with
            | none => simp
            | some d => simp [hdel d hout]

theorem Windowed.frame (h : Windowed P s) (guest : Go.Reassembler) (delivered : List Delivery)
    (hguest : GuestHolds P s.Ran guest (delivered.filter fun d => d.streamId = P.streamId)) :
    Windowed P { s with guest := guest, delivered := delivered } :=
  ⟨h.pending_le, h.window, h.sent_le, h.remaining, h.nodup, h.idle, h.inUse, h.rotation, hguest⟩

theorem windowed_other (h : Windowed P s) (env : Go.Surroundings) (m : MsgType)
    (req : List UInt8) (s' : SendState) (hs' : s.other P env m req = some s') :
    Windowed P s' := by
  obtain ⟨hquiet, hflight, hmine, guest, delivered, rfl⟩ :=
    other_frame h.guest.quiet env m req s' hs'
  refine h.frame guest delivered ?_
  have hmine' : (delivered.filter fun d => d.streamId = P.streamId) = s.mine P := hmine
  rw [hmine']
  exact h.guest.frame hquiet hflight

end SendState

end ShmIpc.Stream
