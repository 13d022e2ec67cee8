import ShmIpc.Stream.Completeness

/-!
The two reassemblers side by side. They run on different clocks, hand out
buffers with different bytes in them and retire contexts in a different order,
but as long as the host has room, no stream expires and allocations succeed,
every message gets the same answer from both. The relation that carries this is
that the same streams are in flight on both sides, each having taken in the same
chunks in the same order.
-/

namespace ShmIpc.Stream
open Library

namespace StreamContext

/-- The same stream over a buffer with other bytes. -/
def withBuf (c : StreamContext) (buf : List UInt8) : StreamContext := { c with buf := buf }

theorem consume_withBuf (c : StreamContext) (buf : List UInt8) (maxParked : Nat)
    (allocFails : Bool) (index dst : Nat) (data : List UInt8) :
    ∃ buf', (c.withBuf buf).consume maxParked allocFails index dst data =
      ((c.consume maxParked allocFails index dst data).1.withBuf buf',
        (c.consume maxParked allocFails index dst data).2.withData buf') := by
  have htag := (sameStream_consume c maxParked allocFails ⟨index, dst, data⟩).appMsgType
  refine ⟨c.takenBuf buf index dst data,
    (c.consume_recast buf c.appMsgType maxParked allocFails index dst data).trans ?_⟩
  simp only [recast, withBuf, ← htag]

end StreamContext

/-- Two contexts that took in the same chunks in the same order. -/
def Twins (c d : StreamContext) : Prop :=
  ∃ initial initial' W buf, Live initial W c ∧ Live initial' W d ∧ d = c.withBuf buf

theorem twins_fresh (header : StreamHeader) (buf buf' : List UInt8)
    (hbuf : buf.length = header.totalSize) (hbuf' : buf'.length = header.totalSize)
    (hsize : header.totalSize ≤ 2 ^ 30) (hchunks : header.totalChunks < 2 ^ 32)
    (hpos : 0 < header.totalChunks) :
    Twins (.fresh header.totalSize header.totalChunks header.appMsgType buf)
      (.fresh header.totalSize header.totalChunks header.appMsgType buf') :=
  ⟨buf, buf', [], buf', live_fresh _ _ _ buf hbuf hsize hchunks hpos,
    live_fresh _ _ _ buf' hbuf' hsize hchunks hpos, rfl⟩

theorem Twins.takeChunk {c d : StreamContext} (h : Twins c d) (maxParked : Nat)
    (allocFails : Bool) (req : List UInt8) :
    (c.takeChunk maxParked allocFails req).2 = (d.takeChunk maxParked allocFails req).2 ∧
      Option.Rel Twins (c.takeChunk maxParked allocFails req).1
        (d.takeChunk maxParked allocFails req).1 := by
  have htwins := h
  obtain ⟨initial, initial', W, buf, hc, hd, rfl⟩ := h
  have hchunks : (c.withBuf buf).totalChunks = c.totalChunks := rfl
  simp only [StreamContext.takeChunk, hchunks]
  split
  · exact ⟨rfl, .some htwins⟩
  · split
    · exact ⟨rfl, .some htwins⟩
    · next hindex =>
        have hlt : (chunkArrival req).index < c.totalChunks := Nat.lt_of_not_le hindex
        have hsize : (chunkArrival req).payload.length < 2 ^ 32 := length_chunkPayload_lt req
        obtain ⟨buf', hconsume⟩ := c.consume_withBuf buf maxParked allocFails
          (parseChunkHeader req).chunkIndex (parseChunkHeader req).dstOffset (chunkPayload req)
        rw [hconsume]
        cases he : c.consume maxParked allocFails (parseChunkHeader req).chunkIndex
            (parseChunkHeader req).dstOffset (chunkPayload req) with
        | mk e out =>
          rw [he] at hconsume
          have hleft := tracks_consume hc maxParked allocFails (chunkArrival req) hlt hsize
            e out he
          have hright := tracks_consume hd maxParked allocFails (chunkArrival req) hlt hsize
            _ _ hconsume
          cases out with
          | duplicate => exact ⟨rfl, .some htwins⟩
          | corrupt => exact ⟨rfl, .none⟩
          | accepted =>
            obtain ⟨-, -, ht, hs, hend⟩ := hleft (by simp) (by simp)
            obtain ⟨-, -, ht', hs', -⟩ := hright (by simp [ChunkOutcome.withData])
              (by simp [ChunkOutcome.withData])
            have hlt' : e.next < e.totalChunks := by simpa using hend
            exact ⟨rfl, .some ⟨initial, initial', _, buf', ⟨ht, hs, hlt'⟩,
              ⟨ht', hs', hlt'⟩, rfl⟩⟩
          | complete data =>
            obtain ⟨-, -, ht, -, hend⟩ := hleft (by simp) (by simp)
            obtain ⟨-, -, ht', -, -⟩ := hright (by simp [ChunkOutcome.withData])
              (by simp [ChunkOutcome.withData])
            obtain ⟨hdata, hnext, hoff⟩ : data = e.buf ∧ e.next = e.totalChunks ∧
                e.offset = e.totalSize := by simpa using hend
            have hbytes : e.buf = buf' :=
              (complete_concat ht hnext hoff).1.trans
                (complete_concat ht' hnext hoff).1.symm
            subst hdata hbytes
            exact ⟨rfl, .none⟩

/-- One message as both sides see it, each in its own surroundings. -/
structure Turn where
  host : Cpp.Surroundings
  guest : Go.Surroundings
  msgType : MsgType
  req : List UInt8

/-- Nothing but the messages decides the answers of this turn: the allocation
succeeds, and a start finds room on the host and no stream past its timeout on
either side. -/
structure Turn.Undisturbed (t : Turn) (r : Cpp.StreamReassembler) (s : Go.Reassembler) :
    Prop where
  allocates : t.host.allocFails = false
  room : t.msgType = .streamStart → count r.streams < 1024
  hostInTime : t.msgType = .streamStart → ∀ id c, r.streams.lookup id = some c →
    Cpp.StreamReassembler.elapsedMs t.host.pruneTime c.startTime ≤ r.config.streamTimeoutMs
  guestInTime : t.msgType = .streamStart → 0 < s.timeout → ∀ id ref c,
    s.streams.lookup id = some ref → s.heap ref = some c → t.guest.now - c.started ≤ s.timeout

/-- The same streams are in flight on both sides. -/
structure Parallel (r : Cpp.StreamReassembler) (s : Go.Reassembler) : Prop where
  config : r.config = {}
  quiet : s.Quiet
  streams : ∀ id, Option.Rel Twins (r.inFlight id) (s.inFlight id)

namespace Cpp.StreamReassembler

variable (r : StreamReassembler) (env : Surroundings) (req : List UInt8)

theorem handleChunk_frame (id : Nat) (h : id ≠ (parseChunkHeader req).streamId) :
    (r.handleChunk env req).1.inFlight id = r.inFlight id := by
  simp only [handleChunk]
  split
  · rfl
  · split
    · rfl
    · split
      · rfl
      · split
        · rfl
        · split
          · rfl
          · rw [inFlight_insert, Function.update_of_ne h]
          · rw [inFlight_erase, Function.update_of_ne h]
          · rw [inFlight_erase, Function.update_of_ne h]

theorem pruneInternal_eq_self (now : Int) (h : ∀ id c, r.streams.lookup id = some c →
    elapsedMs now c.startTime ≤ r.config.streamTimeoutMs) : r.pruneInternal now = r := by
  have hkeep := keepIf_eq_self (fun (_ : Nat) (c : HostContext) =>
    !decide (elapsedMs now c.startTime > r.config.streamTimeoutMs)) r.streams
    (fun id c hc => by simpa using h id c hc)
  simp only [pruneInternal, hkeep]

end Cpp.StreamReassembler

namespace Go.Reassembler

variable (s : Reassembler)

theorem handleChunk_frame (hq : s.Quiet) (req : List UInt8) (id : Nat)
    (h : id ≠ (parseChunkHeader req).streamId) :
    (s.handleChunk req).1.inFlight id = s.inFlight id := by
  simp only [handleChunk]
  split
  · rfl
  · split
    · rfl
    · cases lookupSection_spec hq (parseChunkHeader req).streamId
          (parseChunkHeader req).chunkIndex with
      | inl hnone => simp only [hnone.1]
      | inr hsome =>
        obtain ⟨s', ref, c, hlookup, hf⟩ := hsome
        have hopen : (c.done || c.dead) = false := by rw [hf.done, hf.dead]; rfl
        simp only [hlookup, contextSection, hf.heap, hopen, Bool.false_eq_true, if_false]
        cases hconsume : c.toStreamContext.consume MaxParkedChunks false
            (parseChunkHeader req).chunkIndex (parseChunkHeader req).dstOffset
            (chunkPayload req) with
        | mk d outcome =>
          have hretired := (retire_setContext hf.quiet hf.lookup
            { c with toStreamContext := d, done := true }).1
          cases outcome with
          | duplicate => simp only [hf.inFlight]
          | accepted =>
            simp only [inFlight_setContext hf.quiet hf.lookup, Function.update_of_ne h,
              hf.inFlight]
          | corrupt | complete data =>
            simp only [hretired, Function.update_of_ne h, hf.inFlight]

end Go.Reassembler

theorem Parallel.count_eq {r : Cpp.StreamReassembler} {s : Go.Reassembler} (h : Parallel r s) :
    count r.streams = count s.streams := by
  apply count_eq_of_keys
  intro id
  have hguest : (s.inFlight id).isSome = (s.streams.lookup id).isSome := by
    cases hlook : s.streams.lookup id with
    | none => simp [Go.Reassembler.inFlight, hlook]
    | some ref =>
      obtain ⟨c, hc, -⟩ := h.quiet.live id ref hlook
      simp [Go.Reassembler.inFlight, hlook, hc]
  have hhost : (r.inFlight id).isSome = (r.streams.lookup id).isSome := by
    simp [Cpp.StreamReassembler.inFlight]
  have hrel := h.streams id
  rw [← hguest, ← hhost]
  generalize r.inFlight id = c at hrel ⊢
  generalize s.inFlight id = d at hrel ⊢
  cases hrel with
  | some _ => rfl
  | none => rfl

theorem rel_update {v w : InFlight} (h : ∀ id, Option.Rel Twins (v id) (w id)) (id : Nat)
    {c d : Option StreamContext} (hcd : Option.Rel Twins c d) :
    ∀ i, Option.Rel Twins (Function.update v id c i) (Function.update w id d i) := by
  intro i
  by_cases hi : i = id
  · rw [hi, Function.update_self, Function.update_self]
    exact hcd
  · rw [Function.update_of_ne hi, Function.update_of_ne hi]
    exact h i

section Turns

variable {r : Cpp.StreamReassembler} {s : Go.Reassembler}

theorem parallel_chunk (h : Parallel r s) (env : Cpp.Surroundings) (req : List UInt8)
    (halloc : env.allocFails = false) :
    (r.handleChunk env req).2 = (s.handleChunk req).2 ∧
      Parallel (r.handleChunk env req).1 (s.handleChunk req).1 := by
  have hconfig := (Cpp.StreamReassembler.handleChunk_step r env req).2.trans h.config
  have hquiet := (Go.Reassembler.handleChunk_step h.quiet req).2
  have hparked : r.config.maxParkedChunks = Go.MaxParkedChunks := by rw [h.config]; rfl
  suffices hnamed : (r.handleChunk env req).2 = (s.handleChunk req).2 ∧
      Option.Rel Twins ((r.handleChunk env req).1.inFlight (parseChunkHeader req).streamId)
        ((s.handleChunk req).1.inFlight (parseChunkHeader req).streamId) by
    refine ⟨hnamed.1, hconfig, hquiet, ?_⟩
    intro id
    by_cases hid : id = (parseChunkHeader req).streamId
    · rw [hid]
      exact hnamed.2
    · rw [Cpp.StreamReassembler.handleChunk_frame r env req id hid,
        Go.Reassembler.handleChunk_frame s h.quiet req id hid]
      exact h.streams id
  have hrel := h.streams (parseChunkHeader req).streamId
  cases hc : r.inFlight (parseChunkHeader req).streamId with
  | none =>
    rw [hc] at hrel
    have hd : s.inFlight (parseChunkHeader req).streamId = none := by
      generalize s.inFlight (parseChunkHeader req).streamId = d at hrel
      cases hrel
      rfl
    rw [Cpp.StreamReassembler.handleChunk_unknown r env req hc,
      Go.Reassembler.handleChunk_unknown s req h.quiet hd, hc, hd]
    exact ⟨rfl, .none⟩
  | some c =>
    rw [hc] at hrel
    obtain ⟨d, hd, htwins⟩ : ∃ d, s.inFlight (parseChunkHeader req).streamId = some d ∧
        Twins c d := by
      generalize s.inFlight (parseChunkHeader req).streamId = d at hrel
      cases hrel with
      | some htwins => exact ⟨_, rfl, htwins⟩
    have hhost := Cpp.StreamReassembler.handleChunk_known r env req c hc
    have hguest := Go.Reassembler.handleChunk_known s req h.quiet d hd
    rw [halloc, hparked] at hhost
    obtain ⟨hanswer, hstreams⟩ := htwins.takeChunk Go.MaxParkedChunks false req
    rw [← hhost, ← hguest] at hanswer hstreams
    exact ⟨hanswer, hstreams⟩

theorem parallel_open (h : Parallel r s) (hostCtx : Cpp.HostContext) (guest : Go.Surroundings)
    (header : StreamHeader) (buf : List UInt8) (hbuf : buf.length = header.totalSize)
    (hctx : hostCtx.toStreamContext =
      .fresh header.totalSize header.totalChunks header.appMsgType buf)
    (hsize : header.totalSize ≤ 2 ^ 30) (hchunks : header.totalChunks < 2 ^ 32)
    (hpos : 0 < header.totalChunks) (hroom : count s.streams < Go.MaxConcurrentStreams)
    (hlive : 0 < s.timeout → ∀ id ref c, s.streams.lookup id = some ref →
      s.heap ref = some c → guest.now - c.started ≤ s.timeout) :
    Parallel { r with streams := r.streams.insert header.streamId hostCtx }
      ((s.allocate (.new header (guest.newBuf header.totalSize).toList)).startSection guest.now
        header.streamId s.allocated) := by
  obtain ⟨hquiet, hflight⟩ := Go.Reassembler.quiet_allocate s
    (.new header (guest.newBuf header.totalSize).toList) h.quiet
  have hunused : ∀ i, s.streams.lookup i ≠ some s.allocated :=
    fun i hlook => Nat.lt_irrefl _ (h.quiet.below i _ hlook)
  have hinst := Go.Reassembler.installed_startSection _ guest.now header.streamId s.allocated _
    hquiet.distinct (Function.update_self _ _ _) hunused
  have hstreams := Go.Reassembler.startSection_streams
    (s.allocate (.new header (guest.newBuf header.totalSize).toList)) guest.now header.streamId
    s.allocated hroom (by
      intro hpos id ref c hlook hc
      have hne : ref ≠ s.allocated := fun heq => hunused id (heq ▸ hlook)
      have hold : s.heap ref = some c := (Function.update_of_ne hne _ _).symm.trans hc
      exact hlive hpos id ref c hlook hold)
  refine ⟨h.config, hinst.quiet hquiet (Nat.lt_succ_self _) hunused rfl rfl, ?_⟩
  have hguest : ((s.allocate (.new header (guest.newBuf header.totalSize).toList)).startSection
      guest.now header.streamId s.allocated).inFlight = Function.update s.inFlight header.streamId
        (some (.fresh header.totalSize header.totalChunks header.appMsgType
          (guest.newBuf header.totalSize).toList)) := by
    obtain ⟨w, -, hw⟩ := hinst.inFlight_eq
    funext id
    by_cases hid : id = header.streamId
    · rw [hid, hw, Function.update_self, Function.update_self]
      rfl
    · rw [Function.update_of_ne hid, ← hflight]
      simp only [Go.Reassembler.inFlight, hstreams, lookup_insert_eq, if_neg hid]
      cases hlook : s.streams.lookup id with
      | none => simp only [Go.Reassembler.allocate, Go.Reassembler.setContext, hlook,
          Option.bind_none]
      | some ref =>
        have hkept := hinst.others id ref hid (by
          rw [hstreams, lookup_insert_eq, if_neg hid]
          exact hlook)
        simp only [hkept.1, Option.bind_some, hkept.2]
  rw [hguest, Cpp.StreamReassembler.inFlight_insert, hctx]
  exact rel_update h.streams header.streamId
    (.some (twins_fresh header buf _ hbuf (by simp) hsize hchunks hpos))

theorem parallel_start (h : Parallel r s) (t : Turn) (ht : t.Undisturbed r s)
    (hstart : t.msgType = .streamStart) :
    (r.handleStart t.host t.req).2 = (s.handleStart t.guest t.req).2 ∧
      Parallel (r.handleStart t.host t.req).1 (s.handleStart t.guest t.req).1 := by
  have hroom := ht.room hstart
  have hguestRoom : count s.streams < Go.MaxConcurrentStreams := by
    rw [← h.count_eq]
    exact hroom
  have hconfig := h.config
  have hprune := r.pruneInternal_eq_self t.host.pruneTime (ht.hostInTime hstart)
  simp only [Cpp.StreamReassembler.handleStart, Go.Reassembler.handleStart, hprune, hconfig,
    ht.allocates, Go.MaxStreamChunks, Go.MaxStreamSize, Cpp.kMaxStreamSize,
    Nat.not_le.mpr hroom, Bool.false_eq_true, if_false]
  by_cases hshort : t.req.length < streamHeaderSize
  · simp only [hshort, if_true]
    exact ⟨trivial, h⟩
  by_cases hbounds : (parseStreamHeader t.req).totalSize > 2 ^ 30 ∨
      (parseStreamHeader t.req).totalChunks > 2 ^ 20
  · simp only [hshort, hbounds, hbounds.symm, if_false, if_true]
    exact ⟨trivial, h⟩
  have hswapped : ¬ ((parseStreamHeader t.req).totalChunks > 2 ^ 20 ∨
      (parseStreamHeader t.req).totalSize > 2 ^ 30) := fun hor => hbounds hor.symm
  simp only [hshort, hbounds, hswapped, if_false]
  by_cases hzero : (parseStreamHeader t.req).totalChunks = 0
  · simp only [hzero, if_true]
    split
    · exact ⟨rfl, h⟩
    · exact ⟨rfl, h⟩
  · simp only [hzero, if_false]
    refine ⟨trivial, ?_⟩
    have hopen := parallel_open h
      { StreamContext.fresh (parseStreamHeader t.req).totalSize
          (parseStreamHeader t.req).totalChunks (parseStreamHeader t.req).appMsgType
          (t.host.newBuf (parseStreamHeader t.req).totalSize).toList with
        startTime := t.host.startTime } t.guest (parseStreamHeader t.req)
      (t.host.newBuf (parseStreamHeader t.req).totalSize).toList (by simp) rfl (by omega)
      (parseStreamHeader_inRange t.req).totalChunks (by omega) hguestRoom (ht.guestInTime hstart)
    rw [hconfig] at hopen
    exact hopen

theorem parallel_turn (h : Parallel r s) (t : Turn) (ht : t.Undisturbed r s) :
    (r.handle t.host t.msgType t.req).2 = (s.handler t.guest t.msgType t.req).2 ∧
      Parallel (r.handle t.host t.msgType t.req).1 (s.handler t.guest t.msgType t.req).1 := by
  obtain ⟨host, guest, msgType, req⟩ := t
  cases msgType with
  | streamStart =>
    obtain ⟨hanswer, hparallel⟩ := parallel_start h _ ht rfl
    exact ⟨congrArg some hanswer, hparallel⟩
  | streamChunk =>
    obtain ⟨hanswer, hparallel⟩ := parallel_chunk h host req ht.allocates
    exact ⟨congrArg some hanswer, hparallel⟩
  | normal | heartbeatReq | heartbeatResp | shutdown | flatbuffer | guestCall | systemError
  | other => exact ⟨rfl, h⟩

end Turns

def Turn.hostEvent (t : Turn) : Cpp.Event := .message t.host t.msgType t.req

def Turn.guestEvent (t : Turn) : Go.Event := ⟨t.guest, t.msgType, t.req⟩

/-- Every turn of the run is undisturbed in the states it finds. -/
def UndisturbedRun (r : Cpp.StreamReassembler) (s : Go.Reassembler) : List Turn → Prop
  | [] => True
  | t :: turns => t.Undisturbed r s ∧
      UndisturbedRun (r.handle t.host t.msgType t.req).1 (s.handler t.guest t.msgType t.req).1
        turns

theorem exchanges_eq_of_parallel (turns : List Turn) (r : Cpp.StreamReassembler)
    (s : Go.Reassembler) (h : Parallel r s) (hturns : UndisturbedRun r s turns) :
    (r.run (turns.map Turn.hostEvent)).2 = (s.run (turns.map Turn.guestEvent)).2 := by
  induction turns generalizing r s with
  | nil => rfl
  | cons t turns ih =>
    obtain ⟨hanswer, hnext⟩ := parallel_turn h t hturns.1
    have hrest := ih _ _ hnext hturns.2
    simp only [List.map_cons, Cpp.StreamReassembler.run, Go.Reassembler.run, Turn.hostEvent,
      Turn.guestEvent, Cpp.StreamReassembler.apply, hanswer] at hrest ⊢
    rw [hrest]
    rfl

theorem parallel_initial (timeout : Int) :
    Parallel (.construct {}) (Go.Reassembler.new timeout) where
  config := rfl
  quiet := Go.Reassembler.quiet_new timeout
  streams _ := .none

/-- Both reassemblers, with their default limits, answer every message alike and
make the same callbacks, for any messages whatsoever. -/
theorem reassemblers_agree (timeout : Int) (turns : List Turn)
    (h : UndisturbedRun (.construct {}) (Go.Reassembler.new timeout) turns) :
    ((Cpp.StreamReassembler.construct {}).run (turns.map Turn.hostEvent)).2 =
      ((Go.Reassembler.new timeout).run (turns.map Turn.guestEvent)).2 :=
  exchanges_eq_of_parallel turns _ _ (parallel_initial timeout) h

def quietTurn (msgType : MsgType) (req : List UInt8) : Turn := ⟨zeroHost, zeroGuest, msgType, req⟩

theorem undisturbed_chunk (req : List UInt8) (r : Cpp.StreamReassembler) (s : Go.Reassembler) :
    (quietTurn .streamChunk req).Undisturbed r s where
  allocates := rfl
  room h := by cases h
  hostInTime h := by cases h
  guestInTime h := by cases h

theorem reassemblers_agree_twoBlocks :
    ((Cpp.StreamReassembler.construct {}).run
        [.message zeroHost .streamStart twoBlocksStart, .message zeroHost .streamChunk secondBlock,
          .message zeroHost .streamChunk firstBlock]).2 =
      ((Go.Reassembler.new 5).run
        [⟨zeroGuest, .streamStart, twoBlocksStart⟩, ⟨zeroGuest, .streamChunk, secondBlock⟩,
          ⟨zeroGuest, .streamChunk, firstBlock⟩]).2 ∧
    ((Go.Reassembler.new 5).run
        [⟨zeroGuest, .streamStart, twoBlocksStart⟩, ⟨zeroGuest, .streamChunk, secondBlock⟩,
          ⟨zeroGuest, .streamChunk, firstBlock⟩]).2.map Exchange.delivery =
      [none, none, some ⟨7, 9, [1, 2, 3]⟩] := by
  refine ⟨?_, by decide⟩
  refine reassemblers_agree 5 [quietTurn .streamStart twoBlocksStart,
    quietTurn .streamChunk secondBlock, quietTurn .streamChunk firstBlock]
    ⟨?_, undisturbed_chunk _ _ _, undisturbed_chunk _ _ _, trivial⟩
  refine ⟨rfl, fun _ => by decide, ?_, ?_⟩
  · intro _ id c hc
    simp [Cpp.StreamReassembler.construct] at hc
  · intro _ _ id ref c hc
    simp [Go.Reassembler.new] at hc

end ShmIpc.Stream
