import ShmIpc.Stream.Window

/-!
One stream on the host's side of a guest sender: what the C++ reassembler makes of the
start and the chunks as long as it rejects none of them, and when it does reject none.
Other streams may at most make it discard this one.
-/

namespace ShmIpc.Stream
open Library

namespace StreamContext

theorem room_of_consume (c : StreamContext) (maxParked index dstOffset : Nat) (allocFails : Bool)
    (data : List UInt8) (hnew : c.isDuplicate index = false)
    (h : (c.consume maxParked allocFails index dstOffset data).2 ≠ .corrupt) :
    index = c.next ∨ (count c.ooo < maxParked ∧ allocFails = false) := by
  by_cases hnext : index = c.next
  · exact Or.inl hnext
  · right
    have hwrite : ∀ off, (c.write off data).next = c.next ∧ (c.write off data).ooo = c.ooo := by
      intro off
      simp only [write]
      split
      · exact ⟨rfl, rfl⟩
      · exact ⟨rfl, rfl⟩
    simp only [consume, hnew, place, Bool.false_eq_true, if_false] at h
    split at h
    case h_1 => exact absurd rfl h
    case h_2 d hd =>
      split at hd
      · cases hd
      · simp only [(hwrite dstOffset).1, if_neg hnext, notePlaced, (hwrite dstOffset).2] at hd
        split at hd
        · cases hd
        · next e he =>
            split at he
            · cases he
            · next hroom =>
                split at he
                · cases he
                · next halloc => exact ⟨by omega, by simpa using halloc⟩

theorem consume_allocFails (c : StreamContext) (maxParked index dstOffset : Nat)
    (allocFails : Bool) (data : List UInt8) (h : index = c.next ∨ allocFails = false) :
    c.consume maxParked allocFails index dstOffset data =
      c.consume maxParked false index dstOffset data := by
  rcases h with hnext | hfails
  · have hwrite : (c.write dstOffset data).next = c.next := by
      simp only [write]
      split
      · rfl
      · rfl
    simp only [consume, place, hwrite, if_pos hnext]
  · rw [hfails]

end StreamContext

theorem Cpp.StreamReassembler.handle_streamStart (r : StreamReassembler) (env : Surroundings)
    (req : List UInt8) : r.handle env .streamStart req =
      ((r.handleStart env req).1, some (r.handleStart env req).2) := rfl

theorem Cpp.StreamReassembler.handle_streamChunk (r : StreamReassembler) (env : Surroundings)
    (req : List UInt8) : r.handle env .streamChunk req =
      ((r.handleChunk env req).1, some (r.handleChunk env req).2) := rfl

theorem reply_eq_normal {v w : InFlight} {m : MsgType} {req : List UInt8} {a : Answer}
    (hx : Step v ⟨m, req, some a⟩ w) (ha : a.reply ≠ .systemError) : a.reply = .normal := by
  cases hx with
  | refused => exact absurd rfl ha
  | empty | opened | repeated | accepted | completed => rfl

/-- The host's side when it has rejected nothing and the chunks in `ran` have run. -/
structure HostSide (C : SendCall) (ran : Nat → Prop) (host : Cpp.StreamReassembler)
    (delivered : List Delivery) : Prop where
  complete : (∀ i, i < C.totalChunks → ran i) → C.wholeStream ∈ delivered
  partly : ¬ (∀ i, i < C.totalChunks → ran i) → ∀ c, host.inFlight C.streamId = some c →
    ∃ initial W, Holds C.blocks initial W c ∧ c.totalChunks = C.totalChunks ∧
      c.appMsgType = C.appMsgType ∧ ∀ i, i ∈ indices W ↔ ran i

section Steps

variable {C : SendCall} (hC : C.Sized)
include hC

theorem data_eq_nil (hzero : C.totalChunks = 0) : C.data = [] := by
  have h := hC.lt_totalChunks 0
  rw [hzero, Nat.zero_mul] at h
  exact List.eq_nil_of_length_eq_zero (by omega)

theorem hostSide_start (host : Cpp.StreamReassembler) (env : Cpp.Surroundings)
    (delivered : List Delivery) (hsize : host.config.maxStreamSize ≤ 2 ^ 30)
    (hreply : (host.handleStart env C.startMsg).2.reply ≠ .systemError) :
    HostSide C (fun _ => False) (host.handleStart env C.startMsg).1
      (delivered ++ (host.handleStart env C.startMsg).2.delivered.toList) := by
  have hstep := (Cpp.StreamReassembler.handleStart_step host env C.startMsg hsize).1
  have hnormal := reply_eq_normal hstep hreply
  by_cases hzero : C.totalChunks = 0
  · refine ⟨?_, fun hsome => absurd (fun i hi => by omega) hsome⟩
    intro _
    have hlen : C.startMsg.length = streamHeaderSize := length_putStreamHeader _
    have hdata := data_eq_nil hC hzero
    have hnil : C.data.length = 0 := by rw [hdata]; rfl
    have hbounds : ¬ (0 > host.config.maxStreamSize ∨ 0 > host.config.maxStreamChunks) := by omega
    have hanswer : (host.handleStart env C.startMsg).2 = ⟨.normal, some C.wholeStream⟩ := by
      simp only [Cpp.StreamReassembler.handleStart, hlen, Nat.lt_irrefl, hC.parse_startMsg, hzero,
        hnil, hbounds, if_true, if_false, ne_eq, not_true_eq_false]
      rw [SendCall.wholeStream, hdata]
    rw [hanswer]
    exact List.mem_append_right _ List.mem_cons_self
  · refine ⟨fun hall => absurd (hall 0 (by omega)) id, ?_⟩
    intro _ c hc
    obtain ⟨buf, hlive, hfresh⟩ := fresh_of_accepted hstep (by rw [Option.map_some, hnormal])
      (by rw [hC.parse_startMsg]; simp only; omega)
    rw [hC.parse_startMsg] at hlive hfresh
    rw [hfresh] at hc
    cases hc
    exact ⟨buf, [], ⟨hlive, by simp [Conforms], hC.startOf_blocks⟩, rfl, rfl, by simp [indices]⟩

theorem host_start (host : Cpp.StreamReassembler) (env : Cpp.Surroundings)
    (hsize : C.data.length ≤ host.config.maxStreamSize)
    (hchunks : C.totalChunks ≤ host.config.maxStreamChunks)
    (hroom : C.totalChunks = 0 ∨
      (count (host.pruneInternal env.pruneTime).streams < host.config.maxStreams ∧
        env.allocFails = false)) :
    (host.handleStart env C.startMsg).2.reply = .normal := by
  have hlen : C.startMsg.length = streamHeaderSize := length_putStreamHeader _
  have hbounds : ¬ (C.data.length > host.config.maxStreamSize ∨
      C.totalChunks > host.config.maxStreamChunks) := by omega
  simp only [Cpp.StreamReassembler.handleStart, hlen, Nat.lt_irrefl, hC.parse_startMsg, hbounds,
    if_false]
  by_cases hzero : C.totalChunks = 0
  · have hnil : C.data.length = 0 := by rw [data_eq_nil hC hzero]; rfl
    simp only [hzero, hnil, if_true, ne_eq, not_true_eq_false, if_false]
  · obtain ⟨hplace, halloc⟩ := hroom.resolve_left hzero
    have hcap : ¬ count (host.pruneInternal env.pruneTime).streams ≥
        (host.pruneInternal env.pruneTime).config.maxStreams := Nat.not_le.mpr hplace
    simp only [hzero, hcap, halloc, if_false, Bool.false_eq_true]
    rfl

theorem host_chunk {ran : Nat → Prop} {host : Cpp.StreamReassembler} {delivered : List Delivery}
    (h : HostSide C ran host delivered) (env : Cpp.Surroundings) {index : Nat} {c : StreamContext}
    (hindex : index < C.totalChunks) (hnew : ¬ ran index)
    (hflight : host.inFlight C.streamId = some c)
    (hroom : index = c.next ∨
      (count c.ooo < host.config.maxParkedChunks ∧ env.allocFails = false)) :
    (host.handleChunk env (C.chunk index)).2.reply = .normal ∧
      HostSide C (fun i => ran i ∨ i = index) (host.handleChunk env (C.chunk index)).1
        (delivered ++ (host.handleChunk env (C.chunk index)).2.delivered.toList) := by
  obtain ⟨initial, W, hholds, hn, htag, hran⟩ :=
    h.partly (fun hall => hnew (hall index hindex)) c hflight
  have hframed := hC.framed_chunk index hindex
  have hidx : (parseChunkHeader (C.chunk index)).chunkIndex = index := by
    rw [hC.parse_chunk index hindex]
  have hknown := Cpp.StreamReassembler.handleChunk_known host env (C.chunk index) c
    (by rw [hframed.streamId]; exact hflight)
  have halloc : c.takeChunk host.config.maxParkedChunks env.allocFails (C.chunk index) =
      c.takeChunk host.config.maxParkedChunks false (C.chunk index) := by
    simp only [StreamContext.takeChunk]
    rw [StreamContext.consume_allocFails c _ _ _ env.allocFails _
      (by rw [hidx]; exact hroom.imp_right And.right)]
  rw [hframed.streamId, halloc] at hknown
  obtain ⟨hlast, hmore⟩ := hholds.takeChunk_chunk hC hn htag host.config.maxParkedChunks hindex
    (fun hi => hnew ((hran index).mp hi))
    (by rw [← count_ooo hholds.live.tracks hholds.live.steady]; exact hroom.imp_right And.left)
  have hmem : ∀ i, i ∈ indices W ++ [index] ↔ ran i ∨ i = index := by
    intro i
    rw [List.mem_append, List.mem_singleton, hran]
  by_cases hall : CoversAll C.totalChunks (indices W ++ [index])
  · obtain ⟨hgone, hanswer⟩ := Prod.mk.inj (hknown.trans (hlast hall))
    rw [hanswer]
    refine ⟨rfl, ?_, fun hsome => absurd (fun i hi => (hmem i).mp (hall i hi)) hsome⟩
    exact fun _ => List.mem_append_right _ List.mem_cons_self
  · obtain ⟨W', d, htake, hd, hn', htag', hindices⟩ := hmore hall
    obtain ⟨hstays, hanswer⟩ := Prod.mk.inj (hknown.trans htake)
    rw [hanswer]
    refine ⟨rfl, fun hfull => absurd (fun i hi => (hmem i).mpr (hfull i hi)) hall, ?_⟩
    intro _ e he
    rw [hstays] at he
    cases he
    refine ⟨initial, W', hd, hn', htag', ?_⟩
    rw [hindices]
    exact hmem

theorem hostSide_chunk {ran : Nat → Prop} {host : Cpp.StreamReassembler}
    {delivered : List Delivery} (h : HostSide C ran host delivered) (env : Cpp.Surroundings)
    {index : Nat} (hindex : index < C.totalChunks) (hnew : ¬ ran index)
    (hreply : (host.handleChunk env (C.chunk index)).2.reply ≠ .systemError) :
    HostSide C (fun i => ran i ∨ i = index) (host.handleChunk env (C.chunk index)).1
      (delivered ++ (host.handleChunk env (C.chunk index)).2.delivered.toList) := by
  have hframed := hC.framed_chunk index hindex
  have hidx : (parseChunkHeader (C.chunk index)).chunkIndex = index := by
    rw [hC.parse_chunk index hindex]
  cases hflight : host.inFlight C.streamId with
  | none =>
    rw [Cpp.StreamReassembler.handleChunk_unknown host env (C.chunk index)
      (by rw [hframed.streamId]; exact hflight)] at hreply
    exact absurd rfl hreply
  | some c =>
    refine (host_chunk hC h env hindex hnew hflight ?_).2
    obtain ⟨initial, W, hholds, hn, -, hran⟩ :=
      h.partly (fun hall => hnew (hall index hindex)) c hflight
    have hdup : c.isDuplicate index = false := by
      rw [← Bool.not_eq_true, hholds.live.tracks.isDuplicate_iff, hran]
      exact hnew
    apply StreamContext.room_of_consume c _ index (parseChunkHeader (C.chunk index)).dstOffset _
      (chunkPayload (C.chunk index)) hdup
    intro hcorrupt
    apply hreply
    have hknown := Cpp.StreamReassembler.handleChunk_known host env (C.chunk index) c
      (by rw [hframed.streamId]; exact hflight)
    rw [takeChunk_framed c _ _ C.streamId _ hframed (by rw [hidx, hn]; exact hindex),
      hidx] at hknown
    rw [(Prod.mk.inj hknown).2]
    cases hout : c.consume host.config.maxParkedChunks env.allocFails index
        (parseChunkHeader (C.chunk index)).dstOffset (chunkPayload (C.chunk index)) with
    | mk d outcome =>
      rw [hout] at hcorrupt
      cases hcorrupt
      rfl

omit hC in
theorem hostSide_other {ran : Nat → Prop} {host : Cpp.StreamReassembler}
    {delivered : List Delivery} (h : HostSide C ran host delivered) (event : Cpp.Event)
    (hsize : host.config.maxStreamSize ≤ 2 ^ 30) (more : List Delivery)
    (hother : ∀ x ∈ (host.apply event).2,
      SendState.addressedTo C.streamId x.msgType x.req = false) :
    HostSide C ran (host.apply event).1 (delivered ++ more) := by
  have hkept : (host.apply event).1.inFlight C.streamId = host.inFlight C.streamId ∨
      (host.apply event).1.inFlight C.streamId = none := by
    cases event with
    | message env m req =>
      exact (step_other (Cpp.StreamReassembler.handle_step host env m req hsize).1
        (hother _ List.mem_cons_self)).1
    | prune now => exact Cpp.StreamReassembler.discards_pruneInternal host now C.streamId
  refine ⟨fun hall => List.mem_append_left _ (h.complete hall), ?_⟩
  intro hsome c hc
  rcases hkept with hsame | hnone
  · exact h.partly hsome c (hsame ▸ hc)
  · rw [hnone] at hc
    cases hc

end Steps

end ShmIpc.Stream
