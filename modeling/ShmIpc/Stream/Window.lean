import Mathlib.Order.Interval.Finset.Nat
import ShmIpc.Stream.Completeness
import ShmIpc.Stream.Sender

/-!
What one guest handler call means for the stream a sender is sending. The
chunks that have run are given by a predicate; all those below the window have,
none beyond it has, and a window of at most 1025 chunks never parks more records
than the reassembler allows.
-/

namespace ShmIpc.Stream
open Library

namespace SendCall

/-- What the sender may assume of its configuration and arguments. -/
structure Valid (P : SendCall) : Prop where
  room : chunkHeaderSize < P.maxReqSize
  width : P.maxReqSize < 2 ^ 31
  size : P.data.length ≤ 2 ^ 30
  window_pos : 1 ≤ P.maxInFlight
  window_le : P.maxInFlight ≤ 1025
  slots : P.maxInFlight ≤ P.numSlots
  range : P.baseSlot < 0 ∨ P.baseSlot + P.maxInFlight ≤ P.numSlots
  streamId : P.streamId < 2 ^ 64
  appMsgType : P.appMsgType < 2 ^ 32

def blocks (P : SendCall) : Nat → List UInt8 := block P.data P.maxPayload

def chunk (P : SendCall) (i : Nat) : List UInt8 :=
  P.chunkMsg i (P.data.length - i * P.maxPayload)

def wholeStream (P : SendCall) : Delivery := ⟨P.streamId, P.appMsgType, P.data⟩

/-- The part of it that the messages depend on. -/
structure Sized (P : SendCall) : Prop where
  room : chunkHeaderSize < P.maxReqSize
  size : P.data.length ≤ 2 ^ 30
  streamId : P.streamId < 2 ^ 64
  appMsgType : P.appMsgType < 2 ^ 32

theorem Valid.sized {P : SendCall} (hP : P.Valid) : P.Sized :=
  ⟨hP.room, hP.size, hP.streamId, hP.appMsgType⟩

variable {P : SendCall} (hP : P.Sized)
include hP

theorem Sized.maxPayload_pos : 0 < P.maxPayload := by
  have h := hP.room
  simp only [maxPayload]
  omega

theorem Sized.totalChunks_eq :
    P.totalChunks = blockCount P.data.length P.maxPayload := by
  have hw := hP.maxPayload_pos
  have hsize := hP.size
  have hle : blockCount P.data.length P.maxPayload ≤ P.data.length := by
    by_contra hlt
    have hmul := (lt_blockCount_iff P.data.length P.maxPayload P.data.length hw).mp (by omega)
    have hge : P.data.length * 1 ≤ P.data.length * P.maxPayload := Nat.mul_le_mul_left _ hw
    omega
  simp only [totalChunks]
  split
  · next hzero => omega
  · exact Nat.mod_eq_of_lt (by omega)

theorem Sized.lt_totalChunks (i : Nat) :
    i < P.totalChunks ↔ i * P.maxPayload < P.data.length := by
  rw [hP.totalChunks_eq]
  exact lt_blockCount_iff _ _ _ hP.maxPayload_pos

theorem Sized.totalChunks_le : P.totalChunks ≤ 2 ^ 30 := by
  by_contra hlt
  have hmul := (hP.lt_totalChunks (2 ^ 30)).mp (by omega)
  have hge : 2 ^ 30 * 1 ≤ 2 ^ 30 * P.maxPayload := Nat.mul_le_mul_left _ hP.maxPayload_pos
  have hsize := hP.size
  omega

theorem Sized.startOf_blocks : startOf P.blocks P.totalChunks = P.data.length := by
  rw [hP.totalChunks_eq, blocks, startOf_block_all _ _ hP.maxPayload_pos]

theorem Sized.concat_blocks : concat P.blocks P.totalChunks = P.data := by
  rw [hP.totalChunks_eq, blocks, concat_block_all _ _ hP.maxPayload_pos]

theorem Sized.parse_startMsg :
    parseStreamHeader P.startMsg =
      ⟨P.streamId, P.data.length, P.totalChunks, P.appMsgType⟩ := by
  have hsize := hP.size
  have hn := hP.totalChunks_le
  have h := parseStreamHeader_put ⟨P.streamId, P.data.length, P.totalChunks, P.appMsgType⟩
    ⟨hP.streamId, by simp only; omega, by simp only; omega, hP.appMsgType⟩ []
  rw [List.append_nil] at h
  exact h

theorem Sized.chunk_eq (i : Nat) (hi : i < P.totalChunks) :
    P.chunk i = putChunkHeader ⟨P.streamId, i, (P.blocks i).length, i * P.maxPayload, 0⟩ ++
      P.blocks i := by
  have hlt := (hP.lt_totalChunks i).mp hi
  have hsize := hP.size
  have hsent : P.data.length - (P.data.length - i * P.maxPayload) = i * P.maxPayload := by omega
  have hcur : P.currentChunkSize (P.data.length - i * P.maxPayload) = (P.blocks i).length := by
    rw [blocks, length_block, currentChunkSize]
    split <;> omega
  have hblock : (P.data.drop (i * P.maxPayload)).take (P.blocks i).length = P.blocks i := by
    rw [blocks, length_block, block, List.take_eq_take_iff, List.length_drop]
    omega
  simp only [chunk, chunkMsg, hsent, hcur, hblock]
  rw [Nat.mod_eq_of_lt (by omega)]

theorem Sized.chunk_inRange (i : Nat) (hi : i < P.totalChunks) :
    ChunkHeader.InRange ⟨P.streamId, i, (P.blocks i).length, i * P.maxPayload, 0⟩ := by
  have hlt := (hP.lt_totalChunks i).mp hi
  have hsize := hP.size
  have hn := hP.totalChunks_le
  have hlen : (P.blocks i).length ≤ P.data.length := by
    rw [blocks, length_block]
    omega
  exact ⟨hP.streamId, by simp only; omega, by simp only; omega, by simp only; omega,
    by simp only; omega⟩

theorem Sized.parse_chunk (i : Nat) (hi : i < P.totalChunks) :
    parseChunkHeader (P.chunk i) =
      ⟨P.streamId, i, (P.blocks i).length, i * P.maxPayload, 0⟩ := by
  rw [hP.chunk_eq i hi, parseChunkHeader_put _ (hP.chunk_inRange i hi)]

theorem Sized.payload_chunk (i : Nat) (hi : i < P.totalChunks) :
    chunkPayload (P.chunk i) = P.blocks i := by
  rw [hP.chunk_eq i hi, chunkPayload_put _ (hP.chunk_inRange i hi) _ rfl]

theorem Sized.framed_chunk (i : Nat) (hi : i < P.totalChunks) :
    Framed P.streamId (P.chunk i) := by
  constructor
  · rw [hP.parse_chunk i hi, hP.chunk_eq i hi, List.length_append, length_putChunkHeader]
  · rw [hP.parse_chunk i hi]

end SendCall

theorem step_other {v w : InFlight} {m : MsgType} {req : List UInt8} {answer : Option Answer}
    {id : Nat} (hx : Step v ⟨m, req, answer⟩ w)
    (hother : SendState.addressedTo id m req = false) :
    (w id = v id ∨ w id = none) ∧
      ∀ d, answer.bind Answer.delivered = some d → d.streamId ≠ id := by
  simp only [SendState.addressedTo, Bool.or_eq_false_iff, Bool.and_eq_false_iff,
    decide_eq_false_iff_not] at hother
  cases hx with
  | ignored m req hstart hchunk => exact ⟨Or.inl rfl, by simp⟩
  | refused w m req hw => exact ⟨hw id, by simp [Answer.error]⟩
  | empty req hchunks =>
    refine ⟨Or.inl rfl, ?_⟩
    intro d hd
    cases hd
    simpa using hother.1
  | opened w req buf hbuf hsize hpos hw =>
    have hne : id ≠ (parseStreamHeader req).streamId := by
      simpa [eq_comm] using hother.1
    exact ⟨by rw [Function.update_of_ne hne]; exact hw id, by simp [Answer.ack]⟩
  | repeated req c d maxParked allocFails hc hd => exact ⟨Or.inl rfl, by simp [Answer.ack]⟩
  | accepted req c d maxParked allocFails hc hindex hd =>
    have hne : id ≠ (parseChunkHeader req).streamId := by
      simpa [eq_comm] using hother.2
    exact ⟨Or.inl (Function.update_of_ne hne _ _), by simp [Answer.ack]⟩
  | completed req data c d maxParked allocFails hc hindex hd =>
    have hne : id ≠ (parseChunkHeader req).streamId := by
      simpa [eq_comm] using hother.2
    refine ⟨Or.inl (Function.update_of_ne hne _ _), ?_⟩
    intro e he
    cases he
    exact Ne.symm hne

theorem unchanged_of_delivering_start {v w : InFlight} {req : List UInt8} {d : Delivery}
    (hx : Step v ⟨.streamStart, req, some ⟨.normal, some d⟩⟩ w) : w = v := by
  cases hx with
  | empty req hchunks => rfl

theorem Go.Reassembler.inFlight_isSome {s : Go.Reassembler} (h : s.Quiet) (id : Nat) :
    (s.inFlight id).isSome = (s.streams.lookup id).isSome := by
  cases hlook : s.streams.lookup id with
  | none => simp [inFlight, hlook]
  | some ref =>
    obtain ⟨c, hc, -⟩ := h.live id ref hlook
    simp [inFlight, hlook, hc]

/-- The stream on the guest's side when the chunks in `ran` have run: complete
and delivered once, or in flight with exactly those chunks taken in. -/
structure GuestHolds (P : SendCall) (ran : Nat → Prop) (guest : Go.Reassembler)
    (mine : List Delivery) : Prop where
  quiet : guest.Quiet
  complete : (∀ i, i < P.totalChunks → ran i) →
    guest.inFlight P.streamId = none ∧ mine = [P.wholeStream]
  partly : ¬ (∀ i, i < P.totalChunks → ran i) → mine = [] ∧
    ∃ initial W c, guest.inFlight P.streamId = some c ∧ Holds P.blocks initial W c ∧
      c.totalChunks = P.totalChunks ∧ c.appMsgType = P.appMsgType ∧
      ∀ i, i ∈ indices W ↔ ran i

theorem card_ahead_le (seen : List Nat) {low high next width : Nat} (hnodup : seen.Nodup)
    (hhigh : ∀ i ∈ seen, i < high) (hlow : ∀ i, i < low → i ∈ seen)
    (hwindow : high ≤ low + width) (hnext : next ∉ seen) :
    (seen.filter fun j => next < j).length ≤ width - 1 := by
  have hlow' : low ≤ next := by
    by_contra hlt
    exact hnext (hlow next (by omega))
  have hsub : (seen.filter fun j => next < j).toFinset ⊆ Finset.Ioo next high := by
    intro i hi
    simp only [List.mem_toFinset, List.mem_filter, decide_eq_true_eq] at hi
    exact Finset.mem_Ioo.mpr ⟨hi.2, hhigh i hi.1⟩
  have hcard := Finset.card_le_card hsub
  rw [List.toFinset_card_of_nodup (hnodup.filter _), Nat.card_Ioo] at hcard
  omega

/-- Two chunks of the window are missing when one runs ahead of the cursor, so the
records parked beyond the cursor are at most the others. -/
theorem window_room {seen : List Nat} {low high index next width maxParked : Nat}
    (hnodup : seen.Nodup) (hhigh : ∀ i ∈ seen, i < high) (hlow : ∀ i, i < low → i ∈ seen)
    (hwindow : high ≤ low + width) (hwidth : width ≤ maxParked + 1) (hindex : index < high)
    (hnew : index ∉ seen) (hbelow : ∀ j, j < next → j ∈ seen) (hnext : next ∉ seen) :
    index = next ∨ (seen.filter fun j => next < j).length < maxParked := by
  by_cases heq : index = next
  · exact Or.inl heq
  · right
    have hle : next ≤ index := by
      by_contra hlt
      exact hnew (hbelow index (by omega))
    have hmem : ∀ i, i ∈ index :: seen ↔ i = index ∨ i ∈ seen := fun i => List.mem_cons
    have hahead := card_ahead_le (index :: seen) (List.nodup_cons.mpr ⟨hnew, hnodup⟩)
      (fun i hi => ((hmem i).mp hi).elim (fun h => h ▸ hindex) (hhigh i))
      (fun i hi => (hmem i).mpr (Or.inr (hlow i hi))) hwindow
      (fun hi => ((hmem next).mp hi).elim (fun h => heq h.symm) hnext)
    rw [List.filter_cons_of_pos (by simp; omega), List.length_cons] at hahead
    omega

theorem Holds.takeChunk_chunk {C : SendCall} (hC : C.Sized) {initial : List UInt8}
    {W : List Arrival} {c : StreamContext} (h : Holds C.blocks initial W c)
    (hn : c.totalChunks = C.totalChunks) (htag : c.appMsgType = C.appMsgType) (maxParked : Nat)
    {index : Nat} (hindex : index < C.totalChunks) (hnew : index ∉ indices W)
    (hroom : index = c.next ∨ ((indices W).filter fun j => c.next < j).length < maxParked) :
    (CoversAll C.totalChunks (indices W ++ [index]) →
      c.takeChunk maxParked false (C.chunk index) = (none, ⟨.normal, some C.wholeStream⟩)) ∧
    (¬ CoversAll C.totalChunks (indices W ++ [index]) →
      ∃ W' d, c.takeChunk maxParked false (C.chunk index) = (some d, .ack) ∧
        Holds C.blocks initial W' d ∧ d.totalChunks = C.totalChunks ∧
        d.appMsgType = C.appMsgType ∧ indices W' = indices W ++ [index]) := by
  have hframed := hC.framed_chunk index hindex
  have hparse := hC.parse_chunk index hindex
  have hidx : (parseChunkHeader (C.chunk index)).chunkIndex = index := by rw [hparse]
  have hdst : (parseChunkHeader (C.chunk index)).dstOffset = startOf C.blocks index := by
    have hle := (hC.lt_totalChunks index).mp hindex
    rw [hparse, SendCall.blocks, startOf_block, Nat.min_eq_left (Nat.le_of_lt hle)]
  obtain ⟨hlast, hmore⟩ := takeChunk_first h maxParked C.streamId (C.chunk index) hframed
    (by rw [hidx]; exact hnew) (by rw [hidx, hn]; exact hindex)
    (by rw [hidx]; exact hC.payload_chunk index hindex) (by rw [hidx]; exact hdst)
    (by rw [hidx]; exact hroom)
  rw [hidx, hn] at hlast hmore
  constructor
  · intro hall
    rw [hlast hall, htag, hC.concat_blocks, SendCall.wholeStream]
  · intro hall
    obtain ⟨d, htake, hsame, hd⟩ := hmore hall
    refine ⟨_, d, htake, hd, hsame.totalChunks.trans hn, hsame.appMsgType.trans htag, ?_⟩
    rw [indices_append]
    exact congrArg (indices W ++ [·]) hidx

section Handler

variable {P : SendCall} (hP : P.Valid)
include hP

theorem start_answer (g : Go.Reassembler) (env : Go.Surroundings) :
    (g.handleStart env P.startMsg).2 =
      if P.totalChunks > Go.MaxStreamChunks then .error
      else if P.totalChunks = 0 then ⟨.normal, some P.wholeStream⟩ else .ack := by
  have hlen : P.startMsg.length = streamHeaderSize := length_putStreamHeader _
  have hsize : ¬ P.data.length > Go.MaxStreamSize := Nat.not_lt.mpr hP.size
  have hempty : P.totalChunks = 0 → P.data = [] := by
    intro hzero
    have h := hP.sized.lt_totalChunks 0
    rw [hzero, Nat.zero_mul] at h
    exact List.eq_nil_of_length_eq_zero (by omega)
  simp only [Go.Reassembler.handleStart, hlen, Nat.lt_irrefl, if_false, hP.sized.parse_startMsg]
  by_cases hmany : P.totalChunks > Go.MaxStreamChunks
  · rw [if_pos (Or.inl hmany), if_pos hmany]
  · rw [if_neg (not_or.mpr ⟨hmany, hsize⟩), if_neg hmany]
    split
    · next hzero => simp [hempty hzero, SendCall.wholeStream]
    · rfl

theorem guestHolds_start (g : Go.Reassembler) (env : Go.Surroundings) (hq : g.Quiet)
    (hnone : g.inFlight P.streamId = none) (hchunks : P.totalChunks ≤ Go.MaxStreamChunks) :
    (g.handleStart env P.startMsg).2.reply = .normal ∧
      GuestHolds P (fun _ => False) (g.handleStart env P.startMsg).1
        (g.handleStart env P.startMsg).2.delivered.toList := by
  obtain ⟨hstep, hquiet⟩ := Go.Reassembler.handleStart_step g env P.startMsg hq
  have hanswer := start_answer hP g env
  rw [if_neg (by omega)] at hanswer
  by_cases hzero : P.totalChunks = 0
  · rw [if_pos hzero] at hanswer
    refine ⟨by rw [hanswer], hquiet, ?_, ?_⟩
    · intro _
      rw [hanswer] at hstep ⊢
      exact ⟨(congrFun (unchanged_of_delivering_start hstep) P.streamId).trans hnone, rfl⟩
    · intro hsome
      exact absurd (fun i hi => by omega) hsome
  · rw [if_neg hzero] at hanswer
    have hreply : (g.handleStart env P.startMsg).2.reply = .normal := by rw [hanswer]; rfl
    obtain ⟨buf, hlive, hfresh⟩ := fresh_of_accepted hstep (by rw [Option.map_some, hreply])
      (by rw [hP.sized.parse_startMsg]; simp only; omega)
    rw [hP.sized.parse_startMsg] at hlive hfresh
    refine ⟨hreply, hquiet, ?_, ?_⟩
    · intro hall
      exact absurd (hall 0 (by omega)) id
    · intro _
      refine ⟨by rw [hanswer]; rfl, buf, [], _, hfresh, ⟨hlive, by simp [Conforms], ?_⟩,
        rfl, rfl, by simp [indices]⟩
      exact hP.sized.startOf_blocks

/-- A chunk of the window runs: it is acknowledged, and it delivers the stream
if it was the last one missing. -/
theorem guestHolds_chunk {ran : Nat → Prop} {g : Go.Reassembler} {mine : List Delivery}
    (h : GuestHolds P ran g mine) {low high index : Nat} (hindex : index < P.totalChunks)
    (hnew : ¬ ran index) (hhigh : ∀ i, ran i → i < high) (hlow : ∀ i, i < low → ran i)
    (hwindow : high ≤ low + 1025) (hlt : index < high) :
    (g.handleChunk (P.chunk index)).2.reply = .normal ∧
      GuestHolds P (fun i => ran i ∨ i = index) (g.handleChunk (P.chunk index)).1
        (mine ++ (g.handleChunk (P.chunk index)).2.delivered.toList) := by
  obtain ⟨hmine, initial, W, c, hflight, hholds, hn, htag, hran⟩ :=
    h.partly fun hall => hnew (hall index hindex)
  have hroom := window_room hholds.live.tracks.distinct (fun i hi => hhigh i ((hran i).mp hi))
    (fun i hi => (hran i).mpr (hlow i hi)) hwindow (Nat.le_refl _) hlt
    (fun hi => hnew ((hran index).mp hi)) hholds.live.tracks.seen
    (next_notMem hholds.live.tracks hholds.live.steady)
  have hknown := Go.Reassembler.handleChunk_known g (P.chunk index) h.quiet c
    (by rw [(hP.sized.framed_chunk index hindex).streamId]; exact hflight)
  rw [(hP.sized.framed_chunk index hindex).streamId] at hknown
  have hquiet := (Go.Reassembler.handleChunk_step h.quiet (P.chunk index)).2
  obtain ⟨hlast, hmore⟩ := hholds.takeChunk_chunk hP.sized hn htag Go.MaxParkedChunks hindex
    (fun hi => hnew ((hran index).mp hi)) hroom
  have hmem : ∀ i, i ∈ indices W ++ [index] ↔ ran i ∨ i = index := by
    intro i
    rw [List.mem_append, List.mem_singleton, hran]
  by_cases hall : CoversAll P.totalChunks (indices W ++ [index])
  · obtain ⟨hgone, hanswer⟩ := Prod.mk.inj (hknown.trans (hlast hall))
    rw [hanswer]
    refine ⟨rfl, hquiet, ?_, ?_⟩
    · intro _
      refine ⟨hgone, ?_⟩
      rw [hmine]
      rfl
    · intro hsome
      exact absurd (fun i hi => (hmem i).mp (hall i hi)) hsome
  · obtain ⟨W', d, htake, hd, hn', htag', hindices⟩ := hmore hall
    obtain ⟨hstays, hanswer⟩ := Prod.mk.inj (hknown.trans htake)
    rw [hanswer]
    refine ⟨rfl, hquiet, ?_, ?_⟩
    · intro hfull
      exact absurd (fun i hi => (hmem i).mpr (hfull i hi)) hall
    · intro _
      refine ⟨by rw [hmine]; rfl, initial, W', d, hstays, hd, hn', htag', ?_⟩
      rw [hindices]
      exact hmem

end Handler

end ShmIpc.Stream
