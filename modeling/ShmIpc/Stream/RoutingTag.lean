import ShmIpc.Stream.StartRules

/-!
The routing tag of a stream. Both reassemblers store the tag of a start and hand it to
the callback; nothing else looks at it. Two runs over messages that differ in tags and in
chunk padding only are therefore the same run once the tags are wiped from states and
answers, and the tag of a callback is that of the start which opened the stream.
-/

namespace ShmIpc.Stream
open Library

/-- Two messages that agree outside bytes 20 to 23, where a start has its tag and a chunk
its padding. -/
structure SameButTag (req req' : List UInt8) : Prop where
  length : req'.length = req.length
  front : req'.take 20 = req.take 20
  back : req'.drop 24 = req.drop 24

/-- The messages of one type that tell the reassemblers the same. -/
def SameMessage (m : MsgType) (req req' : List UInt8) : Prop :=
  match m with
  | .streamStart | .streamChunk => SameButTag req req'
  | _ => req' = req

namespace SameButTag

variable {req req' : List UInt8}

theorem readField_eq (h : SameButTag req req') (off width : Nat) (hfield : off + width ≤ 20) :
    readField req' off width = readField req off width := by
  rw [← readField_take req' off width 20 hfield, h.front, readField_take req off width 20 hfield]

theorem parseStreamHeader_eq (h : SameButTag req req') :
    parseStreamHeader req' =
      { parseStreamHeader req with appMsgType := (parseStreamHeader req').appMsgType } := by
  simp only [parseStreamHeader, h.readField_eq 0 8 (by decide), h.readField_eq 8 8 (by decide),
    h.readField_eq 16 4 (by decide)]

theorem parseChunkHeader_eq (h : SameButTag req req') :
    parseChunkHeader req' =
      { parseChunkHeader req with padding := (parseChunkHeader req').padding } := by
  simp only [parseChunkHeader, h.readField_eq 0 8 (by decide), h.readField_eq 8 4 (by decide),
    h.readField_eq 12 4 (by decide), h.readField_eq 16 4 (by decide)]

theorem chunkPayload_eq (h : SameButTag req req') : chunkPayload req' = chunkPayload req := by
  rw [chunkPayload, h.parseChunkHeader_eq, chunkHeaderSize, h.back]
  rfl

theorem startKind_eq (h : SameButTag req req') (maxStreamSize maxStreamChunks : Nat) :
    startKind maxStreamSize maxStreamChunks req' = startKind maxStreamSize maxStreamChunks req := by
  rw [startKind, h.parseStreamHeader_eq, h.length]
  rfl

end SameButTag

def StreamContext.untag (c : StreamContext) : StreamContext := { c with appMsgType := 0 }

/-- The answer without the tag its callback got. -/
def Answer.untag (a : Answer) : Answer :=
  { a with delivered := a.delivered.map fun d => { d with appMsgType := 0 } }

theorem SameButTag.openedContext_eq {req req' : List UInt8} (h : SameButTag req req')
    (buf : List UInt8) : (openedContext req' buf).untag = (openedContext req buf).untag := by
  rw [openedContext, h.parseStreamHeader_eq]
  rfl

theorem SameButTag.emptyAnswer_eq {req req' : List UInt8} (h : SameButTag req req') :
    (emptyAnswer req').untag = (emptyAnswer req).untag := by
  rw [emptyAnswer, h.parseStreamHeader_eq]
  rfl

namespace Cpp

def HostContext.untag (c : HostContext) : HostContext :=
  { c.toStreamContext.untag with startTime := c.startTime }

namespace StreamReassembler

/-- The host's state without the tags it stores. -/
def untag (r : StreamReassembler) : StreamReassembler :=
  { r with streams := mapValues HostContext.untag r.streams }

variable (r : StreamReassembler) (env : Surroundings) {req req' : List UInt8}

theorem untag_pruneInternal (now : Int) :
    (r.pruneInternal now).untag = r.untag.pruneInternal now := by
  simp only [untag, pruneInternal]
  congr 1
  exact mapValues_keepIf HostContext.untag _ _ r.streams fun _ _ => rfl

theorem untag_install (id : Nat) (c : StreamContext) :
    ((r.install env id c).1.untag, (r.install env id c).2) = r.untag.install env id c.untag := by
  have hcount : count (r.pruneInternal env.pruneTime).untag.streams =
      count (r.pruneInternal env.pruneTime).streams := count_mapValues _ _
  have hconfig : (r.pruneInternal env.pruneTime).untag.config =
      (r.pruneInternal env.pruneTime).config := rfl
  simp only [install, ← untag_pruneInternal, hcount, hconfig]
  split
  · rfl
  · split
    · rfl
    · simp only [untag, mapValues_insert]
      rfl

theorem untag_handleChunk :
    r.untag.handleChunk env req =
      ((r.handleChunk env req).1.untag, (r.handleChunk env req).2.untag) := by
  have hconfig : r.untag.config = r.config := rfl
  simp only [handleChunk, hconfig]
  split
  · rfl
  · split
    · rfl
    · rw [show r.untag.streams = mapValues HostContext.untag r.streams from rfl, lookup_mapValues]
      cases r.streams.lookup (parseChunkHeader req).streamId with
      | none => rfl
      | some ctx =>
        simp only [Option.map_some]
        rw [show ctx.untag.totalChunks = ctx.totalChunks from rfl]
        split
        · rfl
        · rw [show ctx.untag.toStreamContext =
            { ctx.toStreamContext with appMsgType := 0 } from rfl, StreamContext.consume_retag]
          cases ctx.toStreamContext.consume r.config.maxParkedChunks env.allocFails
              (parseChunkHeader req).chunkIndex (parseChunkHeader req).dstOffset
              (chunkPayload req) with
          | mk d outcome =>
            cases outcome with
            | duplicate => rfl
            | accepted =>
              simp only [untag, mapValues_insert]
              rfl
            | corrupt | complete data =>
              simp only [untag, mapValues_erase]
              rfl

theorem handleChunk_sameButTag (h : SameButTag req req') :
    r.handleChunk env req' = r.handleChunk env req := by
  simp only [handleChunk, h.length, h.chunkPayload_eq]
  rw [h.parseChunkHeader_eq]

variable {r} {r' : StreamReassembler}

theorem handleChunk_congr (hr : r.untag = r'.untag) (h : SameButTag req req') :
    (r.handleChunk env req).1.untag = (r'.handleChunk env req').1.untag ∧
      (r.handleChunk env req).2.untag = (r'.handleChunk env req').2.untag := by
  have hpair : ((r.handleChunk env req).1.untag, (r.handleChunk env req).2.untag) =
      ((r'.handleChunk env req).1.untag, (r'.handleChunk env req).2.untag) := by
    rw [← untag_handleChunk, ← untag_handleChunk, hr]
  rw [handleChunk_sameButTag r' env h]
  exact Prod.ext_iff.mp hpair

theorem handleStart_congr (hr : r.untag = r'.untag) (h : SameButTag req req') :
    (r.handleStart env req).1.untag = (r'.handleStart env req').1.untag ∧
      (r.handleStart env req).2.untag = (r'.handleStart env req').2.untag := by
  have hconfig : r'.config = r.config := (congrArg StreamReassembler.config hr).symm
  rw [handleStart_eq, handleStart_eq, h.startKind_eq, hconfig]
  cases startKind r.config.maxStreamSize r.config.maxStreamChunks req with
  | malformed => exact ⟨hr, rfl⟩
  | empty => exact ⟨hr, h.emptyAnswer_eq.symm⟩
  | opening =>
    have hid : (parseStreamHeader req').streamId = (parseStreamHeader req).streamId := by
      rw [h.parseStreamHeader_eq]
    have hsize : (parseStreamHeader req').totalSize = (parseStreamHeader req).totalSize := by
      rw [h.parseStreamHeader_eq]
    have hpair : ((r.openStream env req).1.untag, (r.openStream env req).2) =
        ((r'.openStream env req').1.untag, (r'.openStream env req').2) := by
      simp only [openStream, untag_install, hr, hid]
      rw [h.openedContext_eq, hsize]
    obtain ⟨hstate, hanswer⟩ := Prod.ext_iff.mp hpair
    exact ⟨hstate, congrArg Answer.untag hanswer⟩

theorem handle_congr (hr : r.untag = r'.untag) (m : MsgType) (h : SameMessage m req req') :
    (r.handle env m req).1.untag = (r'.handle env m req').1.untag ∧
      (r.handle env m req).2.map Answer.untag = (r'.handle env m req').2.map Answer.untag := by
  cases m with
  | streamStart =>
    obtain ⟨hstate, hanswer⟩ := handleStart_congr env hr h
    exact ⟨hstate, congrArg some hanswer⟩
  | streamChunk =>
    obtain ⟨hstate, hanswer⟩ := handleChunk_congr env hr h
    exact ⟨hstate, congrArg some hanswer⟩
  | normal | heartbeatReq | heartbeatResp | shutdown | flatbuffer | guestCall | systemError
  | other => exact ⟨hr, rfl⟩

end StreamReassembler

/-- The same call but for the tag or the padding of its message. -/
inductive Event.SameButTag : Event → Event → Prop
  | message (env : Surroundings) (m : MsgType) (req req' : List UInt8)
      (h : SameMessage m req req') : Event.SameButTag (.message env m req) (.message env m req')
  | prune (now : Int) : Event.SameButTag (.prune now) (.prune now)

end Cpp

/-- What an exchange shows of itself without tags. -/
def Exchange.untagged (x : Exchange) : MsgType × Option Answer :=
  (x.msgType, x.answer.map Answer.untag)

theorem Cpp.StreamReassembler.run_congr {events events' : List Event}
    (h : List.Forall₂ Event.SameButTag events events') {r r' : StreamReassembler}
    (hr : r.untag = r'.untag) :
    (r.run events).1.untag = (r'.run events').1.untag ∧
      (r.run events).2.map Exchange.untagged = (r'.run events').2.map Exchange.untagged := by
  induction h generalizing r r' with
  | nil => exact ⟨hr, rfl⟩
  | cons he _ ih =>
    cases he with
    | message env m req req' hreq =>
      obtain ⟨hstate, hanswer⟩ := handle_congr env hr m hreq
      obtain ⟨hlast, hrest⟩ := ih hstate
      refine ⟨hlast, ?_⟩
      simp only [run, apply, List.map_append, List.map_cons, List.map_nil, hrest,
        Exchange.untagged, hanswer]
    | prune now =>
      have hstate : (r.prune now).untag = (r'.prune now).untag := by
        simp only [prune, untag_pruneInternal, hr]
      exact ih hstate

namespace Go

def GuestContext.untag (c : GuestContext) : GuestContext :=
  { c with toStreamContext := c.toStreamContext.untag }

namespace Reassembler

/-- The guest's state without the tags it stores. -/
def untag (s : Reassembler) : Reassembler :=
  { s with heap := fun ref => (s.heap ref).map GuestContext.untag }

variable (s : Reassembler)

theorem untag_setContext (ref : Nat) (c : GuestContext) :
    (s.setContext ref c).untag = s.untag.setContext ref c.untag := by
  simp only [untag, setContext]
  congr 1
  funext r
  by_cases hr : r = ref
  · rw [hr, Function.update_self, Function.update_self]
    rfl
  · rw [Function.update_of_ne hr, Function.update_of_ne hr]

theorem untag_markDead (refs : List Nat) : (s.markDead refs).untag = s.untag.markDead refs := by
  simp only [untag, markDead]
  congr 1
  funext r
  split
  · rw [Option.map_map, Option.map_map]
    rfl
  · rfl

theorem isExpired_untag (now : Int) (ref : Nat) :
    s.untag.isExpired now ref = s.isExpired now ref := by
  simp only [isExpired, untag]
  cases s.heap ref with
  | none => rfl
  | some c => rfl

theorem lastSeqOf_untag (ref : Nat) : s.untag.lastSeqOf ref = s.lastSeqOf ref := by
  simp only [lastSeqOf, untag]
  cases s.heap ref with
  | none => rfl
  | some c => rfl

theorem untag_prune (now : Int) : (s.prune now).untag = s.untag.prune now := by
  have hexpired : s.untag.isExpired now = s.isExpired now := funext (isExpired_untag s now)
  simp only [prune, hexpired, ← untag_markDead]
  split
  · next htimeout => rw [if_pos (show s.untag.timeout > 0 from htimeout)]; rfl
  · next htimeout => rw [if_neg (show ¬ s.untag.timeout > 0 from htimeout)]

theorem untag_makeRoom (id : Nat) : (s.makeRoom id).untag = s.untag.makeRoom id := by
  have holdest : s.untag.oldestID id = s.oldestID id := by
    simp only [oldestID, lastSeqOf_untag]
    rfl
  have hstreams : s.untag.streams = s.streams := rfl
  simp only [makeRoom, hstreams]
  split
  · exact untag_markDead s _
  · split
    · simp only [evictOldest, hstreams]
      rw [holdest, ← untag_markDead]
      rfl
    · rfl

theorem untag_startSection (now : Int) (id ref : Nat) :
    (s.startSection now id ref).untag = s.untag.startSection now id ref := by
  have hroom : ((({ s with seq := (s.seq + 1) % 2 ^ 64 } : Reassembler).prune now).makeRoom
      id).untag = (({ s.untag with seq := (s.seq + 1) % 2 ^ 64 } : Reassembler).prune
        now).makeRoom id := by
    rw [untag_makeRoom, untag_prune]
    rfl
  simp only [startSection, show s.untag.seq = s.seq from rfl, ← hroom]
  generalize (({ s with seq := (s.seq + 1) % 2 ^ 64 } : Reassembler).prune now).makeRoom id = t
  simp only [show ∀ r, t.untag.heap r = (t.heap r).map GuestContext.untag from fun _ => rfl]
  cases t.heap ref with
  | none => rfl
  | some c =>
    have hset := untag_setContext t ref { c with lastSeq := t.seq, started := now }
    exact congrArg (fun u : Reassembler => { u with streams := u.streams.insert id ref }) hset

theorem untag_lookupSection (id index : Nat) :
    s.untag.lookupSection id index =
      ((s.lookupSection id index).1.untag, (s.lookupSection id index).2) := by
  simp only [lookupSection, show s.untag.streams = s.streams from rfl]
  cases s.streams.lookup id with
  | none => rfl
  | some ref =>
    simp only [show s.untag.heap ref = (s.heap ref).map GuestContext.untag from rfl]
    cases s.heap ref with
    | none => rfl
    | some c =>
      simp only [Option.map_some, show c.untag.totalChunks = c.totalChunks from rfl]
      split
      · rfl
      · rw [untag_setContext]
        rfl

theorem untag_contextSection (ref index dst : Nat) (data : List UInt8) :
    s.untag.contextSection ref index dst data =
      ((s.contextSection ref index dst data).1.untag,
        (s.contextSection ref index dst data).2) := by
  simp only [contextSection, show s.untag.heap ref = (s.heap ref).map GuestContext.untag from rfl]
  cases s.heap ref with
  | none => rfl
  | some c =>
    simp only [Option.map_some, show (c.untag.done || c.untag.dead) = (c.done || c.dead) from rfl]
    split
    · rfl
    · rw [show c.untag.toStreamContext =
        { c.toStreamContext with appMsgType := 0 } from rfl, StreamContext.consume_retag]
      cases c.toStreamContext.consume MaxParkedChunks false index dst data with
      | mk d outcome =>
        cases outcome with
        | duplicate => rfl
        | accepted | corrupt | complete data =>
          simp only [untag_setContext]
          rfl

theorem untag_retire (id ref : Nat) : (s.retire id ref).untag = s.untag.retire id ref := by
  simp only [retire, show s.untag.streams = s.streams from rfl]
  split
  · rfl
  · rfl

theorem untag_handleChunk (req : List UInt8) :
    s.untag.handleChunk req = ((s.handleChunk req).1.untag, (s.handleChunk req).2.untag) := by
  simp only [handleChunk, untag_lookupSection]
  split
  · rfl
  · split
    · rfl
    · cases s.lookupSection (parseChunkHeader req).streamId
          (parseChunkHeader req).chunkIndex with
      | mk t found =>
        cases found with
        | none => rfl
        | some ref =>
          simp only [untag_contextSection]
          cases t.contextSection ref (parseChunkHeader req).chunkIndex
              (parseChunkHeader req).dstOffset (chunkPayload req) with
          | mk u outcome =>
            cases outcome with
            | none => rfl
            | some outcome =>
              cases outcome with
              | duplicate | accepted => rfl
              | corrupt => simp only [← untag_retire]; rfl
              | complete data =>
                simp only [← untag_retire, Answer.untag, Option.map_some]
                cases hu : u.heap ref with
                | none => simp [untag, hu]
                | some c => simp [untag, hu, GuestContext.untag, StreamContext.untag]

variable {s} {s' : Reassembler} {req req' : List UInt8}

theorem handleChunk_congr (hs : s.untag = s'.untag) (h : SameButTag req req') :
    (s.handleChunk req).1.untag = (s'.handleChunk req').1.untag ∧
      (s.handleChunk req).2.untag = (s'.handleChunk req').2.untag := by
  have hsame : s'.handleChunk req' = s'.handleChunk req := by
    simp only [handleChunk, h.length, h.chunkPayload_eq]
    rw [h.parseChunkHeader_eq]
  have hpair : ((s.handleChunk req).1.untag, (s.handleChunk req).2.untag) =
      ((s'.handleChunk req).1.untag, (s'.handleChunk req).2.untag) := by
    rw [← untag_handleChunk, ← untag_handleChunk, hs]
  rw [hsame]
  exact Prod.ext_iff.mp hpair

theorem handleStart_congr (env : Surroundings) (hs : s.untag = s'.untag)
    (h : SameButTag req req') :
    (s.handleStart env req).1.untag = (s'.handleStart env req').1.untag ∧
      (s.handleStart env req).2.untag = (s'.handleStart env req').2.untag := by
  rw [handleStart_eq, handleStart_eq, h.startKind_eq]
  cases startKind MaxStreamSize MaxStreamChunks req with
  | malformed => exact ⟨hs, rfl⟩
  | empty => exact ⟨hs, h.emptyAnswer_eq.symm⟩
  | opening =>
    refine ⟨?_, rfl⟩
    have hid : (parseStreamHeader req').streamId = (parseStreamHeader req).streamId := by
      rw [h.parseStreamHeader_eq]
    have hallocated : s'.allocated = s.allocated := (congrArg Reassembler.allocated hs).symm
    have hnew : ∀ buf, (GuestContext.new (parseStreamHeader req') buf).untag =
        (GuestContext.new (parseStreamHeader req) buf).untag := by
      intro buf
      rw [h.parseStreamHeader_eq]
      rfl
    have hallocate : ∀ t : Reassembler, ∀ c : GuestContext,
        (t.allocate c).untag = t.untag.allocate c.untag := by
      intro t c
      exact congrArg (fun u : Reassembler => { u with allocated := u.allocated + 1 })
        (untag_setContext t t.allocated c)
    simp only [openStream, untag_startSection, hallocate, hs, hid, hallocated, hnew]
    rw [h.parseStreamHeader_eq]

theorem handler_congr (env : Surroundings) (hs : s.untag = s'.untag) (m : MsgType)
    (h : SameMessage m req req') :
    (s.handler env m req).1.untag = (s'.handler env m req').1.untag ∧
      (s.handler env m req).2.map Answer.untag = (s'.handler env m req').2.map Answer.untag := by
  cases m with
  | streamStart =>
    obtain ⟨hstate, hanswer⟩ := handleStart_congr env hs h
    exact ⟨hstate, congrArg some hanswer⟩
  | streamChunk =>
    obtain ⟨hstate, hanswer⟩ := handleChunk_congr hs h
    exact ⟨hstate, congrArg some hanswer⟩
  | normal | heartbeatReq | heartbeatResp | shutdown | flatbuffer | guestCall | systemError
  | other => exact ⟨hs, rfl⟩

end Reassembler

/-- The same call but for the tag or the padding of its message. -/
inductive Event.SameButTag : Event → Event → Prop
  | message (env : Surroundings) (m : MsgType) (req req' : List UInt8)
      (h : SameMessage m req req') : Event.SameButTag ⟨env, m, req⟩ ⟨env, m, req'⟩

theorem Reassembler.run_congr {events events' : List Event}
    (h : List.Forall₂ Event.SameButTag events events') {s s' : Reassembler}
    (hs : s.untag = s'.untag) :
    (s.run events).1.untag = (s'.run events').1.untag ∧
      (s.run events).2.map Exchange.untagged = (s'.run events').2.map Exchange.untagged := by
  induction h generalizing s s' with
  | nil => exact ⟨hs, rfl⟩
  | cons he _ ih =>
    cases he with
    | message env m req req' hreq =>
      obtain ⟨hstate, hanswer⟩ := handler_congr env hs m hreq
      obtain ⟨hlast, hrest⟩ := ih hstate
      refine ⟨hlast, ?_⟩
      simp only [run, List.map_cons, hrest, Exchange.untagged, hanswer]

end Go

/-- Every callback carries the tag of the start that opened its stream: the start that is
being answered, or the latest accepted one of the chunk's stream. -/
def TagsOwn (t : List Exchange) : Prop :=
  ∀ pre x rest d, t = pre ++ x :: rest → x.delivery = some d →
    (x.msgType = .streamStart ∧ d.streamId = (parseStreamHeader x.req).streamId ∧
      d.appMsgType = (parseStreamHeader x.req).appMsgType) ∨
    (x.msgType = .streamChunk ∧ ∃ before st after, LatestOpen d.streamId pre before st after ∧
      d.appMsgType = (parseStreamHeader st.req).appMsgType)

theorem tagsOwn_of_history {v : InFlight} {t : List Exchange} (h : History v t) : TagsOwn t := by
  intro pre x rest d hsplit hd
  have hx : x ∈ t := by
    rw [hsplit]
    simp
  have hsound := deliverySound_of_history h
  cases delivery_msgType_of_history h x hx d hd with
  | inl hstart =>
    obtain ⟨-, rfl⟩ := hsound.start x hx d hstart hd
    exact Or.inl ⟨hstart, rfl, rfl⟩
  | inr hchunk =>
    obtain ⟨before, st, after, p, hdelivered⟩ := hsound.chunk pre x rest d hsplit hchunk hd
    exact Or.inr ⟨hchunk, before, st, after, hdelivered.start, hdelivered.appMsgType.symm⟩

/-- Tags and chunk padding have no influence on anything but the tags that come back, and
those are the ones the streams were opened with. -/
theorem routing_tag_inert :
    (∀ (cfg : Cpp.StreamReassemblerConfig) (events events' : List Cpp.Event),
      List.Forall₂ Cpp.Event.SameButTag events events' →
      ((Cpp.StreamReassembler.construct cfg).run events).1.untag =
          ((Cpp.StreamReassembler.construct cfg).run events').1.untag ∧
        ((Cpp.StreamReassembler.construct cfg).run events).2.map Exchange.untagged =
          ((Cpp.StreamReassembler.construct cfg).run events').2.map Exchange.untagged) ∧
    (∀ (timeout : Int) (events events' : List Go.Event),
      List.Forall₂ Go.Event.SameButTag events events' →
      ((Go.Reassembler.new timeout).run events).1.untag =
          ((Go.Reassembler.new timeout).run events').1.untag ∧
        ((Go.Reassembler.new timeout).run events).2.map Exchange.untagged =
          ((Go.Reassembler.new timeout).run events').2.map Exchange.untagged) ∧
    (∀ (cfg : Cpp.StreamReassemblerConfig) (events : List Cpp.Event),
      TagsOwn ((Cpp.StreamReassembler.construct cfg).run events).2) ∧
    ∀ (timeout : Int) (events : List Go.Event), TagsOwn ((Go.Reassembler.new timeout).run events).2 := by
  refine ⟨?_, ?_, ?_, ?_⟩
  · intro cfg events events' h
    exact Cpp.StreamReassembler.run_congr h rfl
  · intro timeout events events' h
    exact Go.Reassembler.run_congr h rfl
  · intro cfg events
    exact tagsOwn_of_history (Cpp.StreamReassembler.history_run cfg events).1
  · intro timeout events
    exact tagsOwn_of_history (Go.Reassembler.history_run timeout events).1

def retaggedStart : List UInt8 := putStreamHeader ⟨7, 3, 2, 5⟩

def paddedSecondBlock : List UInt8 := putChunkHeader ⟨7, 1, 2, 1, 4⟩ ++ [2, 3]

def paddedFirstBlock : List UInt8 := putChunkHeader ⟨7, 0, 1, 0, 6⟩ ++ [1]

/-- Both sides hand over the same bytes under the two tags, whatever the padding. -/
theorem routing_tag_inert_retagged :
    (((Cpp.StreamReassembler.construct {}).run
        [.message zeroHost .streamStart twoBlocksStart, .message zeroHost .streamChunk secondBlock,
          .message zeroHost .streamChunk firstBlock]).2.map Exchange.untagged =
      ((Cpp.StreamReassembler.construct {}).run
        [.message zeroHost .streamStart retaggedStart,
          .message zeroHost .streamChunk paddedSecondBlock,
          .message zeroHost .streamChunk paddedFirstBlock]).2.map Exchange.untagged) ∧
    (((Go.Reassembler.new 0).run
        [⟨zeroGuest, .streamStart, twoBlocksStart⟩, ⟨zeroGuest, .streamChunk, secondBlock⟩,
          ⟨zeroGuest, .streamChunk, firstBlock⟩]).2.map Exchange.untagged =
      ((Go.Reassembler.new 0).run
        [⟨zeroGuest, .streamStart, retaggedStart⟩, ⟨zeroGuest, .streamChunk, paddedSecondBlock⟩,
          ⟨zeroGuest, .streamChunk, paddedFirstBlock⟩]).2.map Exchange.untagged) ∧
    ((Go.Reassembler.new 0).run
        [⟨zeroGuest, .streamStart, twoBlocksStart⟩, ⟨zeroGuest, .streamChunk, secondBlock⟩,
          ⟨zeroGuest, .streamChunk, firstBlock⟩]).2.map Exchange.delivery =
      [none, none, some ⟨7, 9, [1, 2, 3]⟩] ∧
    ((Go.Reassembler.new 0).run
        [⟨zeroGuest, .streamStart, retaggedStart⟩, ⟨zeroGuest, .streamChunk, paddedSecondBlock⟩,
          ⟨zeroGuest, .streamChunk, paddedFirstBlock⟩]).2.map Exchange.delivery =
      [none, none, some ⟨7, 5, [1, 2, 3]⟩] := by
  have hstart : SameButTag twoBlocksStart retaggedStart := ⟨by decide, by decide, by decide⟩
  have hsecond : SameButTag secondBlock paddedSecondBlock := ⟨by decide, by decide, by decide⟩
  have hfirst : SameButTag firstBlock paddedFirstBlock := ⟨by decide, by decide, by decide⟩
  refine ⟨?_, ?_, by decide, by decide⟩
  · exact (routing_tag_inert.1 {} _ _ (.cons (.message zeroHost .streamStart _ _ hstart)
      (.cons (.message zeroHost .streamChunk _ _ hsecond)
        (.cons (.message zeroHost .streamChunk _ _ hfirst) .nil)))).2
  · exact (routing_tag_inert.2.1 0 _ _ (.cons (.message zeroGuest .streamStart _ _ hstart)
      (.cons (.message zeroGuest .streamChunk _ _ hsecond)
        (.cons (.message zeroGuest .streamChunk _ _ hfirst) .nil)))).2

end ShmIpc.Stream
