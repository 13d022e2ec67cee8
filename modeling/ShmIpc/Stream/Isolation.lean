import ShmIpc.Library.Unwinding
import ShmIpc.Stream.Parity
import ShmIpc.Stream.Rejections

/-!
Streams do not see each other. As long as the in-flight bound is out of reach and nothing
expires, a reassembler that is fed all messages answers those of one stream, and calls
back for it, exactly as if it had been fed no others. The two runs agree on what they
hold for that stream; on the guest its activity stamp is left out, since all streams draw
their stamps from one counter.
-/

namespace ShmIpc.Stream
open Library

/-- The stream a message names, which starts and chunks have at the same place. -/
def messageStream (req : List UInt8) : Nat := (parseStreamHeader req).streamId

theorem streamId_of_chunk (req : List UInt8) :
    (parseChunkHeader req).streamId = messageStream req := rfl

def isOfStream (id : Nat) (m : MsgType) (req : List UInt8) : Bool :=
  (m = .streamStart || m = .streamChunk) && messageStream req = id

def Exchange.ofStream (id : Nat) (x : Exchange) : Bool := isOfStream id x.msgType x.req

theorem Step.ofStream_delivery {v w : InFlight} {x : Exchange} (h : Step v x w) (d : Delivery)
    (hd : x.delivery = some d) : x.ofStream d.streamId = true := by
  cases h with
  | ignored | refused | opened | repeated | accepted => cases hd
  | empty req hchunks =>
    cases hd
    simp [Exchange.ofStream, isOfStream, messageStream]
  | completed req data c e maxParked allocFails hc hindex he =>
    cases hd
    simp [Exchange.ofStream, isOfStream, streamId_of_chunk]

theorem ofStream_delivery_of_history {v : InFlight} {t : List Exchange} (h : History v t) :
    ∀ x ∈ t, ∀ d, x.delivery = some d → x.ofStream d.streamId = true := by
  induction h with
  | start => simp
  | exchange v w t x _ hx ih =>
    intro y hy
    cases List.mem_append.mp hy with
    | inl hold => exact ih y hold
    | inr hnew =>
      rw [List.mem_singleton.mp hnew]
      exact hx.ofStream_delivery
  | discard v w t _ _ ih => exact ih

namespace Cpp

def Event.ofStream (id : Nat) : Event → Bool
  | .message _ m req => isOfStream id m req
  | .prune _ => false

namespace StreamReassembler

/-- No stream has passed its timeout. -/
def InTime (r : StreamReassembler) (now : Int) : Prop :=
  ∀ id c, r.streams.lookup id = some c → elapsedMs now c.startTime ≤ r.config.streamTimeoutMs

/-- A call that meets neither the in-flight bound nor an expired stream. -/
def Calm (r : StreamReassembler) : Event → Prop
  | .message env .streamStart _ =>
    count r.streams < r.config.maxStreams ∧ r.InTime env.pruneTime
  | .message _ _ _ => True
  | .prune now => r.InTime now

theorem run_eq_feed (r : StreamReassembler) (events : List Event) :
    r.run events = feed apply r events := by
  induction events generalizing r with
  | nil => rfl
  | cons e events ih =>
    simp only [run, feed, ← ih]

/-- `r'` holds of `r` the stream `id` alone. -/
structure Shadow (id : Nat) (r r' : StreamReassembler) : Prop where
  config : r'.config = r.config
  stream : r'.streams.lookup id = r.streams.lookup id
  alone : ∀ i, i ≠ id → r'.streams.lookup i = none

section Shadow

variable {id : Nat} {r r' : StreamReassembler} (env : Surroundings) (req : List UInt8)

theorem Shadow.count_le (h : Shadow id r r') : count r'.streams ≤ count r.streams := by
  apply count_le_of_keys
  intro i hi
  by_cases heq : i = id
  · rw [heq, ← h.stream, ← heq]
    exact hi
  · rw [h.alone i heq] at hi
    cases hi

theorem Shadow.inTime (h : Shadow id r r') (now : Int) (hr : r.InTime now) : r'.InTime now := by
  intro i c hc
  rw [h.config]
  by_cases heq : i = id
  · rw [heq, h.stream] at hc
    exact hr id c hc
  · rw [h.alone i heq] at hc
    cases hc

theorem handleStart_calm (hroom : count r.streams < r.config.maxStreams)
    (htime : r.InTime env.pruneTime) :
    r.handleStart env req =
      match startKind r.config.maxStreamSize r.config.maxStreamChunks req with
      | .malformed => (r, .error)
      | .empty => (r, emptyAnswer req)
      | .opening =>
        if env.allocFails then (r, .error)
        else
          ({ r with
              streams := r.streams.insert (messageStream req)
                { openedContext req (env.newBuf (parseStreamHeader req).totalSize).toList with
                  startTime := env.startTime } }, .ack) := by
  have hprune := r.pruneInternal_eq_self env.pruneTime htime
  rw [handleStart_eq]
  cases startKind r.config.maxStreamSize r.config.maxStreamChunks req with
  | malformed | empty => rfl
  | opening =>
    simp only [openStream, install, hprune, if_neg (Nat.not_le.mpr hroom)]
    rfl

theorem Shadow.handleStart (h : Shadow id r r') (hid : messageStream req = id)
    (hroom : count r.streams < r.config.maxStreams) (htime : r.InTime env.pruneTime) :
    Shadow id (r.handleStart env req).1 (r'.handleStart env req).1 ∧
      (r.handleStart env req).2 = (r'.handleStart env req).2 := by
  have hroom' : count r'.streams < r'.config.maxStreams := by
    rw [h.config]
    exact Nat.lt_of_le_of_lt h.count_le hroom
  rw [handleStart_calm env req hroom htime, handleStart_calm env req hroom' (h.inTime _ htime),
    h.config, hid]
  cases startKind r.config.maxStreamSize r.config.maxStreamChunks req with
  | malformed | empty => exact ⟨h, rfl⟩
  | opening =>
    simp only
    split
    · exact ⟨h, rfl⟩
    · refine ⟨⟨rfl, ?_, ?_⟩, rfl⟩
      · simp only [lookup_insert_eq, if_true]
      · intro i hi
        simp only [lookup_insert_eq, if_neg hi]
        exact h.alone i hi

theorem Shadow.handleStart_other (h : Shadow id r r') (hid : messageStream req ≠ id)
    (hroom : count r.streams < r.config.maxStreams) (htime : r.InTime env.pruneTime) :
    Shadow id (r.handleStart env req).1 r' := by
  rw [handleStart_calm env req hroom htime]
  cases startKind r.config.maxStreamSize r.config.maxStreamChunks req with
  | malformed | empty => exact h
  | opening =>
    simp only
    split
    · exact h
    · refine ⟨h.config, ?_, h.alone⟩
      simp only [lookup_insert_eq, if_neg (Ne.symm hid)]
      exact h.stream

theorem Shadow.handleChunk (h : Shadow id r r') (hid : messageStream req = id) :
    Shadow id (r.handleChunk env req).1 (r'.handleChunk env req).1 ∧
      (r.handleChunk env req).2 = (r'.handleChunk env req).2 := by
  subst hid
  have hstream : r'.streams.lookup (parseChunkHeader req).streamId =
      r.streams.lookup (parseChunkHeader req).streamId := h.stream
  simp only [StreamReassembler.handleChunk, hstream, h.config]
  split
  · exact ⟨h, rfl⟩
  · split
    · exact ⟨h, rfl⟩
    · split
      · exact ⟨h, rfl⟩
      · split
        · exact ⟨h, rfl⟩
        · split
          · exact ⟨h, rfl⟩
          · refine ⟨⟨rfl, ?_, ?_⟩, rfl⟩
            · simp only [lookup_insert_eq, streamId_of_chunk, if_true]
            · intro i hi
              simp only [lookup_insert_eq, streamId_of_chunk, if_neg hi]
              exact h.alone i hi
          all_goals
            refine ⟨⟨rfl, ?_, ?_⟩, rfl⟩
            · simp only [lookup_erase_eq, streamId_of_chunk, if_true]
            · intro i hi
              simp only [lookup_erase_eq, streamId_of_chunk, if_neg hi]
              exact h.alone i hi

theorem lookup_handleChunk (i : Nat) (hi : i ≠ messageStream req) :
    (r.handleChunk env req).1.streams.lookup i = r.streams.lookup i ∧
      (r.handleChunk env req).1.config = r.config := by
  simp only [StreamReassembler.handleChunk]
  split
  · exact ⟨rfl, rfl⟩
  · split
    · exact ⟨rfl, rfl⟩
    · split
      · exact ⟨rfl, rfl⟩
      · split
        · exact ⟨rfl, rfl⟩
        · split
          · exact ⟨rfl, rfl⟩
          · simp only [lookup_insert_eq, streamId_of_chunk, if_neg hi, and_self]
          · simp only [lookup_erase_eq, streamId_of_chunk, if_neg hi, and_self]
          · simp only [lookup_erase_eq, streamId_of_chunk, if_neg hi, and_self]

end Shadow

theorem unwinding (id : Nat) :
    Unwinding apply Calm (Event.ofStream id) (Exchange.ofStream id) (Shadow id) where
  kept := by
    intro r r' e h hcalm hkeep
    cases e with
    | prune now => cases hkeep
    | message env m req =>
      have hof : isOfStream id m req = true := hkeep
      have hid : messageStream req = id := by
        simp only [isOfStream, Bool.and_eq_true, decide_eq_true_eq] at hof
        exact hof.2
      suffices hcall : Shadow id (r.handle env m req).1 (r'.handle env m req).1 ∧
          (r.handle env m req).2 = (r'.handle env m req).2 by
        refine ⟨hcall.1, ?_⟩
        simp only [apply, hcall.2]
        exact List.filter_cons_of_pos hof
      cases m with
      | streamStart =>
        obtain ⟨hshadow, hanswer⟩ := h.handleStart env req hid hcalm.1 hcalm.2
        exact ⟨hshadow, congrArg some hanswer⟩
      | streamChunk =>
        obtain ⟨hshadow, hanswer⟩ := h.handleChunk env req hid
        exact ⟨hshadow, congrArg some hanswer⟩
      | normal | heartbeatReq | heartbeatResp | shutdown | flatbuffer | guestCall | systemError
      | other => cases hof
  skipped := by
    intro r r' e h hcalm hkeep
    cases e with
    | prune now =>
      refine ⟨?_, rfl⟩
      rw [apply, prune, r.pruneInternal_eq_self now hcalm]
      exact h
    | message env m req =>
      have hof : isOfStream id m req = false := hkeep
      refine ⟨?_, List.filter_cons_of_neg (by simpa [Exchange.ofStream] using hof)⟩
      cases m with
      | streamStart =>
        have hid : messageStream req ≠ id := by simpa [isOfStream] using hof
        exact h.handleStart_other env req hid hcalm.1 hcalm.2
      | streamChunk =>
        have hid : messageStream req ≠ id := by simpa [isOfStream] using hof
        obtain ⟨hlook, hconfig⟩ := lookup_handleChunk (r := r) env req id (Ne.symm hid)
        exact ⟨h.config.trans hconfig.symm, h.stream.trans hlook.symm, h.alone⟩
      | normal | heartbeatReq | heartbeatResp | shutdown | flatbuffer | guestCall | systemError
      | other => exact h

end StreamReassembler

end Cpp

namespace Go

def Event.ofStream (id : Nat) (e : Event) : Bool := isOfStream id e.msgType e.req

/-- A context without its activity stamp. -/
def GuestContext.unstamped (c : GuestContext) : GuestContext := { c with lastSeq := 0 }

namespace Reassembler

/-- No stream has passed its timeout. -/
def InTime (s : Reassembler) (now : Int) : Prop :=
  0 < s.timeout → ∀ id ref c, s.streams.lookup id = some ref → s.heap ref = some c →
    now - c.started ≤ s.timeout

/-- A call that meets neither the in-flight bound nor an expired stream. -/
def Calm (s : Reassembler) (e : Event) : Prop :=
  e.msgType = .streamStart → count s.streams < MaxConcurrentStreams ∧ s.InTime e.env.now

def respond (s : Reassembler) (e : Event) : Reassembler × List Exchange :=
  ((s.handler e.env e.msgType e.req).1,
    [⟨e.msgType, e.req, (s.handler e.env e.msgType e.req).2⟩])

theorem run_eq_feed (s : Reassembler) (events : List Event) :
    s.run events = feed respond s events := by
  induction events generalizing s with
  | nil => rfl
  | cons e events ih =>
    simp only [run, feed, ih]
    rfl

/-- `s'` holds of `s` the stream `id` alone, whatever its stamp. -/
structure Shadow (id : Nat) (s s' : Reassembler) : Prop where
  quiet : s.Quiet
  quiet' : s'.Quiet
  timeout : s'.timeout = s.timeout
  stream : (s'.contextOf id).map GuestContext.unstamped =
    (s.contextOf id).map GuestContext.unstamped
  alone : ∀ i, i ≠ id → s'.streams.lookup i = none

section Shadow

variable {id : Nat} {s s' : Reassembler} (env : Surroundings) (req : List UInt8)

theorem Shadow.exists_context (h : Shadow id s s') {ref : Nat} {c : GuestContext}
    (hlook : s'.streams.lookup id = some ref) (hheap : s'.heap ref = some c) :
    ∃ r d, s.streams.lookup id = some r ∧ s.heap r = some d ∧ d.unstamped = c.unstamped := by
  have hstream := h.stream
  simp only [contextOf, hlook, Option.bind_some, hheap, Option.map_some] at hstream
  obtain ⟨d, hd, heq⟩ := Option.map_eq_some_iff.mp hstream.symm
  obtain ⟨r, hr, hheap'⟩ := Option.bind_eq_some_iff.mp hd
  exact ⟨r, d, hr, hheap', heq⟩

theorem Shadow.count_le (h : Shadow id s s') : count s'.streams ≤ count s.streams := by
  apply count_le_of_keys
  intro i hi
  by_cases heq : i = id
  · subst heq
    obtain ⟨ref, hlook⟩ := Option.isSome_iff_exists.mp hi
    obtain ⟨c, hheap, -⟩ := h.quiet'.live i ref hlook
    obtain ⟨r, -, hr, -⟩ := h.exists_context hlook hheap
    rw [hr]
    rfl
  · rw [h.alone i heq] at hi
    cases hi

theorem Shadow.inTime (h : Shadow id s s') (now : Int) (hs : s.InTime now) : s'.InTime now := by
  intro hpos i ref c hlook hheap
  rw [h.timeout] at hpos ⊢
  by_cases heq : i = id
  · subst heq
    obtain ⟨r, d, hr, hd, hsame⟩ := h.exists_context hlook hheap
    have hstarted : c.started = d.started := (congrArg GuestContext.started hsame).symm
    rw [hstarted]
    exact hs hpos i r d hr hd
  · rw [h.alone i heq] at hlook
    cases hlook

theorem Shadow.inFlight_eq (h : Shadow id s s') : s'.inFlight id = s.inFlight id := by
  have hstream := congrArg (Option.map GuestContext.toStreamContext) h.stream
  simp only [Option.map_map] at hstream
  rw [inFlight_eq_contextOf, inFlight_eq_contextOf]
  exact hstream

/-- After a start that finds room and nothing expired: the new stream, and the others as
they were. -/
theorem openStream_calm (hq : s.Quiet) (hroom : count s.streams < MaxConcurrentStreams)
    (htime : s.InTime env.now) :
    (s.openStream env req).streams = s.streams.insert (messageStream req) s.allocated ∧
      (s.openStream env req).timeout = s.timeout ∧
      (s.openStream env req).contextOf (messageStream req) =
        some { GuestContext.new (parseStreamHeader req)
          (env.newBuf (parseStreamHeader req).totalSize).toList with
            lastSeq := s.nextSeq, started := env.now } ∧
      ∀ i, i ≠ messageStream req → (s.openStream env req).contextOf i = s.contextOf i := by
  simp only [messageStream]
  have hstreams := streams_cleared s env.now (parseStreamHeader req).streamId hroom htime
  have hprune := shrinksOff_prune (parseStreamHeader req).streamId s env.now
  have hkept := hprune.trans
    (shrinksOff_makeRoom _ (parseStreamHeader req).streamId (hprune.injective hq.distinct))
  refine ⟨?_, ?_, ?_, ?_⟩
  · rw [openStream_eq env req hq, hstreams]
  · rw [openStream_eq env req hq]
    exact timeout_cleared s env.now _
  · rw [contextOf_openStream s env req hq, if_pos rfl]
  · intro i hi
    rw [contextOf_openStream s env req hq, if_neg hi]
    simp only [contextOf, hstreams]
    cases hlook : s.streams.lookup i with
    | none => rfl
    | some ref => exact hkept.kept i ref hi (hstreams ▸ hlook)

theorem Shadow.handleStart (h : Shadow id s s') (hid : messageStream req = id)
    (hroom : count s.streams < MaxConcurrentStreams) (htime : s.InTime env.now) :
    Shadow id (s.handleStart env req).1 (s'.handleStart env req).1 ∧
      (s.handleStart env req).2 = (s'.handleStart env req).2 := by
  have hquiet := (handleStart_step s env req h.quiet).2
  have hquiet' := (handleStart_step s' env req h.quiet').2
  rw [handleStart_eq] at hquiet hquiet' ⊢
  rw [handleStart_eq]
  cases hkind : startKind MaxStreamSize MaxStreamChunks req with
  | malformed | empty => exact ⟨h, rfl⟩
  | opening =>
    rw [hkind] at hquiet hquiet'
    obtain ⟨-, htimeout, hself, -⟩ := openStream_calm env req h.quiet hroom htime
    obtain ⟨hstreams', htimeout', hself', -⟩ := openStream_calm env req h.quiet'
      (Nat.lt_of_le_of_lt h.count_le hroom) (h.inTime _ htime)
    subst hid
    refine ⟨⟨hquiet, hquiet', ?_, ?_, ?_⟩, rfl⟩
    · rw [htimeout', htimeout, h.timeout]
    · rw [hself', hself]
      rfl
    · intro i hi
      rw [hstreams', lookup_insert_eq, if_neg hi]
      exact h.alone i hi

theorem Shadow.handleStart_other (h : Shadow id s s') (hid : messageStream req ≠ id)
    (hroom : count s.streams < MaxConcurrentStreams) (htime : s.InTime env.now) :
    Shadow id (s.handleStart env req).1 s' := by
  have hquiet := (handleStart_step s env req h.quiet).2
  rw [handleStart_eq] at hquiet ⊢
  cases hkind : startKind MaxStreamSize MaxStreamChunks req with
  | malformed | empty => exact h
  | opening =>
    rw [hkind] at hquiet
    obtain ⟨-, htimeout, -, hothers⟩ := openStream_calm env req h.quiet hroom htime
    refine ⟨hquiet, h.quiet', h.timeout.trans htimeout.symm, ?_, h.alone⟩
    rw [hothers id (Ne.symm hid)]
    exact h.stream

theorem contextOf_handleChunk (hq : s.Quiet) {c : GuestContext}
    (hlen : chunkHeaderSize + (parseChunkHeader req).payloadSize ≤ req.length)
    (hc : s.contextOf (messageStream req) = some c)
    (hindex : (parseChunkHeader req).chunkIndex < c.totalChunks) :
    ((s.handleChunk req).1.contextOf (messageStream req)).map GuestContext.unstamped =
      (c.toStreamContext.settle (messageStream req) (c.toStreamContext.consume MaxParkedChunks
        false (parseChunkHeader req).chunkIndex (parseChunkHeader req).dstOffset
        (chunkPayload req))).1.map fun d => { c.unstamped with toStreamContext := d } := by
  obtain ⟨ref, hlook, hheap⟩ := Option.bind_eq_some_iff.mp hc
  rw [handleChunk_placed hq hlen hlook hheap hindex]
  cases c.toStreamContext.consume MaxParkedChunks false (parseChunkHeader req).chunkIndex
      (parseChunkHeader req).dstOffset (chunkPayload req) with
  | mk d outcome =>
    cases outcome with
    | duplicate | accepted =>
      simp only [contextOf, touch, setContext, hlook, Option.bind_some, Function.update_self,
        Option.map_some, StreamContext.settle]
      rfl
    | corrupt | complete data =>
      simp only [contextOf, streamId_of_chunk, lookup_erase_eq, if_true, Option.bind_none,
        Option.map_none, StreamContext.settle]

theorem handleChunk_others (hq : s.Quiet) (i : Nat) (hi : i ≠ messageStream req) :
    (s.handleChunk req).1.contextOf i = s.contextOf i ∧
      (s.streams.lookup i = none → (s.handleChunk req).1.streams.lookup i = none) ∧
      (s.handleChunk req).1.timeout = s.timeout := by
  by_cases hunplaced : Unplaced s.inFlight req
  · rw [handleChunk_unplaced hq hunplaced]
    exact ⟨rfl, id, rfl⟩
  · obtain ⟨hlen, ref, c, hlook, hheap, hindex⟩ := exists_placed hq hunplaced
    rw [handleChunk_placed hq hlen hlook hheap hindex]
    have hframe : ∀ heap : Nat → Option GuestContext, (∀ r, r ≠ ref → heap r = s.heap r) →
        (s.streams.lookup i).bind heap = s.contextOf i :=
      fun heap hheap' => contextOf_update hq hlook heap hheap' i hi
    cases c.toStreamContext.consume MaxParkedChunks false (parseChunkHeader req).chunkIndex
        (parseChunkHeader req).dstOffset (chunkPayload req) with
    | mk d outcome =>
      cases outcome with
      | duplicate | accepted =>
        refine ⟨hframe _ fun r hr => ?_, fun hnone => hnone, rfl⟩
        simp only [touch, setContext, Function.update_of_ne hr]
      | corrupt | complete data =>
        refine ⟨?_, fun hnone => ?_, rfl⟩
        · simp only [contextOf, streamId_of_chunk, lookup_erase_eq, if_neg hi]
          refine hframe _ fun r hr => ?_
          simp only [touch, setContext, Function.update_of_ne hr]
        · simp only [streamId_of_chunk, lookup_erase_eq, if_neg hi, hnone]

theorem Shadow.handleChunk (h : Shadow id s s') (hid : messageStream req = id) :
    Shadow id (s.handleChunk req).1 (s'.handleChunk req).1 ∧
      (s.handleChunk req).2 = (s'.handleChunk req).2 := by
  subst hid
  have hquiet := (handleChunk_step h.quiet req).2
  have hquiet' := (handleChunk_step h.quiet' req).2
  have hflight := h.inFlight_eq
  have hunplaced : Unplaced s'.inFlight req ↔ Unplaced s.inFlight req := by
    simp only [Unplaced, streamId_of_chunk, hflight]
  by_cases hcase : Unplaced s.inFlight req
  · rw [handleChunk_unplaced h.quiet hcase, handleChunk_unplaced h.quiet' (hunplaced.mpr hcase)]
    exact ⟨h, rfl⟩
  · obtain ⟨hlen, ref, c, hlook, hheap, hindex⟩ :=
      exists_placed h.quiet' (mt hunplaced.mp hcase)
    obtain ⟨r, d, hr, hd, hsame⟩ := h.exists_context hlook hheap
    have hcore : d.unstamped.toStreamContext = c.unstamped.toStreamContext :=
      congrArg GuestContext.toStreamContext hsame
    change d.toStreamContext = c.toStreamContext at hcore
    have hc : s'.contextOf (messageStream req) = some c :=
      Option.bind_eq_some_iff.mpr ⟨ref, hlook, hheap⟩
    have hd' : s.contextOf (messageStream req) = some d :=
      Option.bind_eq_some_iff.mpr ⟨r, hr, hd⟩
    have hindex' : (parseChunkHeader req).chunkIndex < d.totalChunks := by
      rw [hcore]
      exact hindex
    refine ⟨⟨hquiet, hquiet', ?_, ?_, ?_⟩, ?_⟩
    · have hother := Nat.succ_ne_self (messageStream req)
      rw [(handleChunk_others req h.quiet _ hother).2.2, h.timeout.symm]
      exact (handleChunk_others req h.quiet' _ hother).2.2
    · rw [contextOf_handleChunk req h.quiet' hlen hc hindex,
        contextOf_handleChunk req h.quiet hlen hd' hindex', hcore, hsame]
    · intro i hi
      exact (handleChunk_others req h.quiet' i hi).2.1 (h.alone i hi)
    · have hin : s.inFlight (parseChunkHeader req).streamId = some c.toStreamContext := by
        rw [streamId_of_chunk, inFlight_eq_contextOf, hd', Option.map_some, hcore]
      have hin' : s'.inFlight (parseChunkHeader req).streamId = some c.toStreamContext := by
        rw [streamId_of_chunk, hflight]
        exact hin
      have hanswer := congrArg Prod.snd (handleChunk_known s req h.quiet _ hin)
      have hanswer' := congrArg Prod.snd (handleChunk_known s' req h.quiet' _ hin')
      exact hanswer.trans hanswer'.symm

end Shadow

theorem unwinding (id : Nat) :
    Unwinding respond Calm (Event.ofStream id) (Exchange.ofStream id) (Shadow id) where
  kept := by
    intro s s' e h hcalm hkeep
    obtain ⟨env, m, req⟩ := e
    have hof : isOfStream id m req = true := hkeep
    have hid : messageStream req = id := by
      simp only [isOfStream, Bool.and_eq_true, decide_eq_true_eq] at hof
      exact hof.2
    suffices hcall : Shadow id (s.handler env m req).1 (s'.handler env m req).1 ∧
        (s.handler env m req).2 = (s'.handler env m req).2 by
      refine ⟨hcall.1, ?_⟩
      simp only [respond, hcall.2]
      exact List.filter_cons_of_pos hof
    cases m with
    | streamStart =>
      obtain ⟨hroom, htime⟩ := hcalm rfl
      obtain ⟨hshadow, hanswer⟩ := h.handleStart env req hid hroom htime
      exact ⟨hshadow, congrArg some hanswer⟩
    | streamChunk =>
      obtain ⟨hshadow, hanswer⟩ := h.handleChunk req hid
      exact ⟨hshadow, congrArg some hanswer⟩
    | normal | heartbeatReq | heartbeatResp | shutdown | flatbuffer | guestCall | systemError
    | other => cases hof
  skipped := by
    intro s s' e h hcalm hkeep
    obtain ⟨env, m, req⟩ := e
    have hof : isOfStream id m req = false := hkeep
    refine ⟨?_, List.filter_cons_of_neg (by simpa [Exchange.ofStream] using hof)⟩
    cases m with
    | streamStart =>
      obtain ⟨hroom, htime⟩ := hcalm rfl
      have hid : messageStream req ≠ id := by simpa [isOfStream] using hof
      exact h.handleStart_other env req hid hroom htime
    | streamChunk =>
      have hid : messageStream req ≠ id := by simpa [isOfStream] using hof
      obtain ⟨hsame, -, htimeout⟩ := handleChunk_others req h.quiet id (Ne.symm hid)
      exact ⟨(handleChunk_step h.quiet req).2, h.quiet', h.timeout.trans htimeout.symm,
        h.stream.trans (congrArg _ hsame.symm), h.alone⟩
    | normal | heartbeatReq | heartbeatResp | shutdown | flatbuffer | guestCall | systemError
    | other => exact h

end Reassembler

end Go

/-- Streams are isolated: as long as no start meets the in-flight bound and nothing
expires, the exchanges of each stream are those of a reassembler that is fed this stream
alone, and every callback is part of an exchange of its own stream. -/
theorem streams_isolated :
    (∀ (cfg : Cpp.StreamReassemblerConfig) (events : List Cpp.Event) (id : Nat),
      Along Cpp.StreamReassembler.apply Cpp.StreamReassembler.Calm
        (Cpp.StreamReassembler.construct cfg) events →
      ((Cpp.StreamReassembler.construct cfg).run events).2.filter (Exchange.ofStream id) =
          ((Cpp.StreamReassembler.construct cfg).run (events.filter (Cpp.Event.ofStream id))).2 ∧
        ∀ x ∈ ((Cpp.StreamReassembler.construct cfg).run events).2, ∀ d,
          x.delivery = some d → x.ofStream d.streamId = true) ∧
    ∀ (timeout : Int) (events : List Go.Event) (id : Nat),
      Along Go.Reassembler.respond Go.Reassembler.Calm (Go.Reassembler.new timeout) events →
      ((Go.Reassembler.new timeout).run events).2.filter (Exchange.ofStream id) =
          ((Go.Reassembler.new timeout).run (events.filter (Go.Event.ofStream id))).2 ∧
        ∀ x ∈ ((Go.Reassembler.new timeout).run events).2, ∀ d,
          x.delivery = some d → x.ofStream d.streamId = true := by
  constructor
  · intro cfg events id hcalm
    refine ⟨?_, ofStream_delivery_of_history (Cpp.StreamReassembler.history_run cfg events).1⟩
    rw [Cpp.StreamReassembler.run_eq_feed, Cpp.StreamReassembler.run_eq_feed]
    refine (Cpp.StreamReassembler.unwinding id).feed_eq events _ _ ⟨rfl, rfl, ?_⟩ hcalm
    intro i _
    rfl
  · intro timeout events id hcalm
    refine ⟨?_, ofStream_delivery_of_history (Go.Reassembler.history_run timeout events).1⟩
    have hquiet := Go.Reassembler.quiet_new timeout
    rw [Go.Reassembler.run_eq_feed, Go.Reassembler.run_eq_feed]
    refine (Go.Reassembler.unwinding id).feed_eq events _ _ ⟨hquiet, hquiet, rfl, rfl, ?_⟩ hcalm
    intro i _
    rfl

def otherStart : List UInt8 := putStreamHeader ⟨8, 1, 1, 4⟩

theorem streams_isolated_twoStreams :
    ((Cpp.StreamReassembler.construct {}).run [.message zeroHost .streamStart twoBlocksStart,
        .message zeroHost .streamStart otherStart,
        .message zeroHost .streamChunk secondBlock]).2.filter (Exchange.ofStream 7) =
      ((Cpp.StreamReassembler.construct {}).run [.message zeroHost .streamStart twoBlocksStart,
        .message zeroHost .streamChunk secondBlock]).2 ∧
    ((Go.Reassembler.new 0).run [⟨zeroGuest, .streamStart, twoBlocksStart⟩,
        ⟨zeroGuest, .streamStart, otherStart⟩,
        ⟨zeroGuest, .streamChunk, secondBlock⟩]).2.filter (Exchange.ofStream 7) =
      ((Go.Reassembler.new 0).run [⟨zeroGuest, .streamStart, twoBlocksStart⟩,
        ⟨zeroGuest, .streamChunk, secondBlock⟩]).2 := by
  constructor
  · refine (streams_isolated.1 {} [.message zeroHost .streamStart twoBlocksStart,
      .message zeroHost .streamStart otherStart, .message zeroHost .streamChunk secondBlock] 7
      ⟨⟨by decide, ?_⟩, ⟨by decide, ?_⟩, trivial, trivial⟩).1
    · intro id c hc
      cases hc
    · intro id c hc
      have hmem := AList.mem_lookup_iff.mp hc
      cases List.mem_singleton.mp hmem
      decide
  · refine (streams_isolated.2 0 [⟨zeroGuest, .streamStart, twoBlocksStart⟩,
      ⟨zeroGuest, .streamStart, otherStart⟩, ⟨zeroGuest, .streamChunk, secondBlock⟩] 7
      ⟨fun _ => ⟨by decide, ?_⟩, fun _ => ⟨by decide, ?_⟩, ?_, trivial⟩).1
    · intro h
      cases h
    · intro h
      cases h
    · intro h
      cases h

end ShmIpc.Stream
