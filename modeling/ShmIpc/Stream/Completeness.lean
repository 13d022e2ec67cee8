import ShmIpc.Stream.Arrivals
import ShmIpc.Stream.Refinement

/-!
Each reassembler answers the chunk messages of one stream exactly as that
stream's context does on its own, so completeness and its converse carry over
from contexts to the two implementations, from any state they can reach.
-/

namespace ShmIpc.Stream
open Library

/-- What a reassembler owes to a stream it has just accepted. `answers` maps
chunk calls, each with its surroundings, to the answers they get. -/
structure Completes {ε : Type} (start : StreamHeader) (maxParked : Nat) (calm : ε → Prop)
    (answers : List (ε × List UInt8) → List (Option Answer)) : Prop where
  acknowledged : ∀ (p : Nat → List UInt8) calls seen,
    startOf p start.totalChunks = start.totalSize → (∀ call ∈ calls, calm call.1) →
    Arrives start.streamId start.totalChunks maxParked p [] (calls.map Prod.snd) seen →
    ¬ CoversAll start.totalChunks seen →
    answers calls = calls.map fun _ => some .ack
  delivered : ∀ (p : Nat → List UInt8) calls last seen seen',
    startOf p start.totalChunks = start.totalSize → (∀ call ∈ calls ++ [last], calm call.1) →
    Arrives start.streamId start.totalChunks maxParked p [] (calls.map Prod.snd) seen →
    ¬ CoversAll start.totalChunks seen →
    Arrives start.streamId start.totalChunks maxParked p seen [last.2] seen' →
    CoversAll start.totalChunks seen' →
    answers (calls ++ [last]) = (calls.map fun _ => some .ack) ++
      [some ⟨.normal, some ⟨start.streamId, start.appMsgType, concat p start.totalChunks⟩⟩]
  exact : ∀ (q : Nat → List UInt8) (dst : Nat → Nat) calls,
    ¬ Tiles q dst start.totalChunks start.totalSize →
    (∀ call ∈ calls, (parseChunkHeader call.2).streamId = start.streamId ∧
      OfFamily q dst call.2) →
    ∀ a, some a ∈ answers calls → a.delivered = none

theorem fresh_of_accepted {v w : InFlight} {req : List UInt8} {answer : Option Answer}
    (hx : Step v ⟨.streamStart, req, answer⟩ w)
    (haccepted : answer.map Answer.reply = some MsgType.normal)
    (hchunks : 1 ≤ (parseStreamHeader req).totalChunks) :
    ∃ buf, Live buf [] (.fresh (parseStreamHeader req).totalSize
        (parseStreamHeader req).totalChunks (parseStreamHeader req).appMsgType buf) ∧
      w (parseStreamHeader req).streamId = some (.fresh (parseStreamHeader req).totalSize
        (parseStreamHeader req).totalChunks (parseStreamHeader req).appMsgType buf) := by
  cases hx with
  | ignored m req hstart hchunk => exact absurd rfl hstart
  | refused w m req hw => cases haccepted
  | empty req hzero => omega
  | opened w req buf hbuf hsize hpos hw =>
    exact ⟨buf, live_fresh _ _ _ buf hbuf hsize (parseStreamHeader_inRange req).totalChunks
      hpos, Function.update_self _ _ _⟩

theorem Arrives.streamId {id n maxParked : Nat} {p : Nat → List UInt8} {seen seen' : List Nat}
    {reqs : List (List UInt8)} (h : Arrives id n maxParked p seen reqs seen') :
    ∀ req ∈ reqs, (parseChunkHeader req).streamId = id := by
  induction h with
  | nil seen => simp
  | again seen seen' req reqs hframed _ _ ih | first seen seen' req reqs hframed _ _ _ _ _ _ ih =>
    simpa using ⟨hframed.streamId, ih⟩

/-- A reassembler that answers the calls of the stream as its fresh context
does has the three properties. -/
theorem completes_of_takeChunks {ε : Type} (start : StreamHeader) (maxParked : Nat)
    (allocFails : ε → Bool) (answers : List (ε × List UInt8) → List (Option Answer))
    (buf : List UInt8)
    (hlive : Live buf [] (.fresh start.totalSize start.totalChunks start.appMsgType buf))
    (hanswers : ∀ calls, (∀ call ∈ calls,
        (parseChunkHeader call.2).streamId = start.streamId) →
      answers calls = (takeChunks maxParked
        (some (.fresh start.totalSize start.totalChunks start.appMsgType buf))
        (calls.map fun call => (allocFails call.1, call.2))).map some) :
    Completes start maxParked (fun env => allocFails env = false) answers := by
  have hcalm : ∀ calls : List (ε × List UInt8), (∀ call ∈ calls, allocFails call.1 = false) →
      calls.map (fun call => (allocFails call.1, call.2)) =
        (calls.map Prod.snd).map (Prod.mk false) := by
    intro calls hcalls
    rw [List.map_map]
    exact List.map_congr_left fun call hcall => by rw [hcalls call hcall]; rfl
  have hids : ∀ calls : List (ε × List UInt8),
      (∀ req ∈ calls.map Prod.snd, (parseChunkHeader req).streamId = start.streamId) →
      ∀ call ∈ calls, (parseChunkHeader call.2).streamId = start.streamId :=
    fun calls h call hcall => h call.2 (List.mem_map_of_mem hcall)
  have hfresh : ∀ p, startOf p start.totalChunks = start.totalSize →
      Holds p buf [] (.fresh start.totalSize start.totalChunks start.appMsgType buf) :=
    fun p hsum => ⟨hlive, by simp [Conforms], hsum⟩
  constructor
  · intro p calls seen hsum hcalls harr hmissing
    obtain ⟨W, d, -, -, -, htake⟩ := takeChunks_arrives harr [] _ (hfresh p hsum) rfl rfl hmissing
    have hall := htake []
    rw [List.append_nil] at hall
    rw [hanswers calls (hids calls harr.streamId), hcalm calls hcalls, hall]
    simp [takeChunks, Function.comp_def]
  · intro p calls last seen seen' hsum hcalls harr hmissing hlast hall
    obtain ⟨W, d, hd, hsame, hW, htake⟩ :=
      takeChunks_arrives harr [] _ (hfresh p hsum) rfl rfl hmissing
    have hid : ∀ call ∈ calls ++ [last],
        (parseChunkHeader call.2).streamId = start.streamId := by
      intro call hcall
      cases List.mem_append.mp hcall with
      | inl hold => exact hids calls harr.streamId call hold
      | inr hnew => exact hlast.streamId _ (by rw [List.mem_singleton.mp hnew]; simp)
    have hend := takeChunks_last hlast W d hd hsame.totalChunks hW hmissing hall
    rw [hanswers (calls ++ [last]) hid, hcalm _ hcalls, List.map_append, List.map_append,
      List.map_singleton, List.map_singleton, htake, hend, hsame.appMsgType]
    simp [StreamContext.fresh, Function.comp_def]
  · intro q dst calls hbad hcalls a ha
    rw [hanswers calls fun call hcall => (hcalls call hcall).1] at ha
    obtain ⟨b, hb, heq⟩ := List.mem_map.mp ha
    cases heq
    refine takeChunks_spoilt maxParked _ ?_ [] _ ⟨hlive, by simp, hbad⟩ a hb
    intro call hcall
    obtain ⟨call', hmem, rfl⟩ := List.mem_map.mp hcall
    exact (hcalls call' hmem).2

theorem Cpp.StreamReassemblerConfig.clamp_maxParkedChunks (cfg : StreamReassemblerConfig) :
    cfg.clamp.maxParkedChunks = cfg.maxParkedChunks := by
  unfold StreamReassemblerConfig.clamp
  split <;> rfl

namespace Cpp.StreamReassembler

variable (r : StreamReassembler) (env : Surroundings) (req : List UInt8)

theorem handleChunk_unknown (h : r.inFlight (parseChunkHeader req).streamId = none) :
    r.handleChunk env req = (r, .error) := by
  have hlook : r.streams.lookup (parseChunkHeader req).streamId = none :=
    Option.map_eq_none_iff.mp h
  simp only [handleChunk, hlook, ite_self]

theorem handleChunk_known (c : StreamContext)
    (h : r.inFlight (parseChunkHeader req).streamId = some c) :
    ((r.handleChunk env req).1.inFlight (parseChunkHeader req).streamId,
        (r.handleChunk env req).2) =
      c.takeChunk r.config.maxParkedChunks env.allocFails req := by
  obtain ⟨ctx, hlook, rfl⟩ := Option.map_eq_some_iff.mp h
  simp only [handleChunk, StreamContext.takeChunk, hlook]
  by_cases hshort : req.length < chunkHeaderSize
  · rw [if_pos hshort, if_pos (Nat.lt_add_right _ hshort), h]
  · rw [if_neg hshort]
    split
    · rw [h]
    · split
      · rw [h]
      · split
        · next d hd => simp only [hd, StreamContext.settle, h]
        · next d hd => simp [hd, StreamContext.settle, inFlight_insert]
        · next d hd => simp [hd, StreamContext.settle, inFlight_erase]
        · next d data hd => simp [hd, StreamContext.settle, inFlight_erase]

def chunkAnswers (calls : List (Surroundings × List UInt8)) : List (Option Answer) :=
  (r.run (calls.map fun call => .message call.1 .streamChunk call.2)).2.map Exchange.answer

theorem chunkAnswers_eq (id : Nat) (calls : List (Surroundings × List UInt8))
    (hid : ∀ call ∈ calls, (parseChunkHeader call.2).streamId = id) :
    r.chunkAnswers calls = (takeChunks r.config.maxParkedChunks (r.inFlight id)
      (calls.map fun call => (call.1.allocFails, call.2))).map some := by
  induction calls generalizing r with
  | nil => cases r.inFlight id <;> rfl
  | cons call calls ih =>
    have hcall := hid call List.mem_cons_self
    have hrest := ih (r.handleChunk call.1 call.2).1
      fun call' h => hid call' (List.mem_cons_of_mem _ h)
    rw [(handleChunk_step r call.1 call.2).2] at hrest
    have hcons : r.chunkAnswers (call :: calls) = some (r.handleChunk call.1 call.2).2 ::
        (r.handleChunk call.1 call.2).1.chunkAnswers calls := rfl
    rw [hcons, hrest]
    cases hc : r.inFlight id with
    | none =>
      rw [handleChunk_unknown r call.1 call.2 (hcall ▸ hc), hc]
      rfl
    | some c =>
      have hknown := handleChunk_known r call.1 call.2 c (hcall ▸ hc)
      rw [hcall] at hknown
      simp only [List.map_cons, takeChunks, ← hknown]

end Cpp.StreamReassembler

namespace Go.Reassembler

variable (s : Reassembler) (req : List UInt8)

theorem handleChunk_unknown (hq : Quiet s)
    (h : s.inFlight (parseChunkHeader req).streamId = none) :
    s.handleChunk req = (s, .error) := by
  cases lookupSection_spec hq (parseChunkHeader req).streamId
      (parseChunkHeader req).chunkIndex with
  | inl hnone => simp only [handleChunk, hnone.1, ite_self]
  | inr hsome =>
    obtain ⟨s', ref, c, -, hf⟩ := hsome
    rw [hf.inFlight_self] at h
    cases h

theorem handleChunk_known (hq : Quiet s) (c : StreamContext)
    (h : s.inFlight (parseChunkHeader req).streamId = some c) :
    ((s.handleChunk req).1.inFlight (parseChunkHeader req).streamId, (s.handleChunk req).2) =
      c.takeChunk MaxParkedChunks false req := by
  simp only [handleChunk, StreamContext.takeChunk]
  by_cases hshort : req.length < chunkHeaderSize
  · rw [if_pos hshort, if_pos (Nat.lt_add_right _ hshort), h]
  · rw [if_neg hshort]
    split
    · rw [h]
    · cases lookupSection_spec hq (parseChunkHeader req).streamId
          (parseChunkHeader req).chunkIndex with
      | inl hnone =>
        rw [if_pos (hnone.2 c h), hnone.1]
        simp only [h]
      | inr hsome =>
        obtain ⟨s', ref, ctx, hlookup, hf⟩ := hsome
        rw [hf.inFlight_self] at h
        cases h
        have hopen : (ctx.done || ctx.dead) = false := by rw [hf.done, hf.dead]; rfl
        rw [if_neg (Nat.not_le.mpr hf.index_lt)]
        simp only [hlookup, contextSection, hf.heap, hopen, Bool.false_eq_true, if_false]
        cases hconsume : ctx.toStreamContext.consume MaxParkedChunks false
            (parseChunkHeader req).chunkIndex (parseChunkHeader req).dstOffset
            (chunkPayload req) with
        | mk d outcome =>
          have hretired := (retire_setContext hf.quiet hf.lookup
            { ctx with toStreamContext := d, done := true }).1
          cases outcome with
          | duplicate =>
            simp only [StreamContext.settle, hf.inFlight, hf.inFlight_self]
          | accepted =>
            simp only [StreamContext.settle, inFlight_setContext hf.quiet hf.lookup,
              Function.update_self]
          | corrupt =>
            simp only [StreamContext.settle, hretired, Function.update_self]
          | complete data =>
            have hsame := sameStream_consume ctx.toStreamContext MaxParkedChunks false
              (chunkArrival req)
            have htag : d.appMsgType = ctx.appMsgType := by
              simpa only [chunkArrival, hconsume] using hsame.appMsgType
            simp only [StreamContext.settle, hretired, Function.update_self]
            simp only [setContext, Function.update_self, Option.map_some,
              Option.getD_some, htag]

def chunkAnswers (calls : List (Surroundings × List UInt8)) : List (Option Answer) :=
  (s.run (calls.map fun call => ⟨call.1, .streamChunk, call.2⟩)).2.map Exchange.answer

theorem chunkAnswers_eq (hq : Quiet s) (id : Nat) (calls : List (Surroundings × List UInt8))
    (hid : ∀ call ∈ calls, (parseChunkHeader call.2).streamId = id) :
    s.chunkAnswers calls = (takeChunks MaxParkedChunks (s.inFlight id)
      (calls.map fun call => (false, call.2))).map some := by
  induction calls generalizing s with
  | nil => cases s.inFlight id <;> rfl
  | cons call calls ih =>
    have hcall := hid call List.mem_cons_self
    have hrest := ih (s.handleChunk call.2).1 (handleChunk_step hq call.2).2
      fun call' h => hid call' (List.mem_cons_of_mem _ h)
    have hcons : s.chunkAnswers (call :: calls) = some (s.handleChunk call.2).2 ::
        (s.handleChunk call.2).1.chunkAnswers calls := rfl
    rw [hcons, hrest]
    cases hc : s.inFlight id with
    | none =>
      rw [handleChunk_unknown s call.2 hq (hcall ▸ hc), hc]
      rfl
    | some c =>
      have hknown := handleChunk_known s call.2 hq c (hcall ▸ hc)
      rw [hcall] at hknown
      simp only [List.map_cons, takeChunks, ← hknown]

end Go.Reassembler

/-- A stream whose start is accepted, in any state either reassembler can reach,
is acknowledged chunk by chunk and delivered once, at its last missing index,
for every legal arrival order; chunks that do not tile it never deliver. -/
theorem reassemblers_complete :
    (∀ (cfg : Cpp.StreamReassemblerConfig) (events : List Cpp.Event) (env : Cpp.Surroundings)
        (req : List UInt8),
      (((Cpp.StreamReassembler.construct cfg).run events).1.handle env .streamStart req).2.map
        Answer.reply = some MsgType.normal →
      1 ≤ (parseStreamHeader req).totalChunks →
      Completes (parseStreamHeader req) cfg.maxParkedChunks (fun env => env.allocFails = false)
        (((Cpp.StreamReassembler.construct cfg).run events).1.handle env
          .streamStart req).1.chunkAnswers) ∧
    ∀ (timeout : Int) (events : List Go.Event) (env : Go.Surroundings) (req : List UInt8),
      (((Go.Reassembler.new timeout).run events).1.handler env .streamStart req).2.map
        Answer.reply = some MsgType.normal →
      1 ≤ (parseStreamHeader req).totalChunks →
      Completes (parseStreamHeader req) Go.MaxParkedChunks (fun _ => True)
        (((Go.Reassembler.new timeout).run events).1.handler env
          .streamStart req).1.chunkAnswers := by
  constructor
  · intro cfg events env req haccepted hchunks
    obtain ⟨-, hconfig⟩ := Cpp.StreamReassembler.history_run cfg events
    have hsize := Cpp.StreamReassembler.clamp_maxStreamSize cfg
    obtain ⟨hstep, hsame⟩ := Cpp.StreamReassembler.handle_step
      ((Cpp.StreamReassembler.construct cfg).run events).1 env .streamStart req
      (by rw [hconfig]; exact hsize)
    obtain ⟨buf, hlive, hfresh⟩ := fresh_of_accepted hstep haccepted hchunks
    refine completes_of_takeChunks _ _ Cpp.Surroundings.allocFails _ buf hlive ?_
    intro calls hid
    rw [Cpp.StreamReassembler.chunkAnswers_eq _ _ calls hid, hfresh, hsame, hconfig,
      Cpp.StreamReassemblerConfig.clamp_maxParkedChunks]
  · intro timeout events env req haccepted hchunks
    obtain ⟨-, hquiet⟩ := Go.Reassembler.history_run timeout events
    obtain ⟨hstep, hquiet'⟩ := Go.Reassembler.handler_step
      ((Go.Reassembler.new timeout).run events).1 env .streamStart req hquiet
    obtain ⟨buf, hlive, hfresh⟩ := fresh_of_accepted hstep haccepted hchunks
    have hanswers := Go.Reassembler.chunkAnswers_eq _ hquiet' (parseStreamHeader req).streamId
    rw [hfresh] at hanswers
    simpa only using completes_of_takeChunks _ _ (fun _ => false) _ buf hlive hanswers

/-- A two-block stream whose second block arrives first, then once more with
other bytes, then the first block. -/
def twoBlocks (i : Nat) : List UInt8 := if i = 0 then [1] else [2, 3]

def twoBlocksStart : List UInt8 := putStreamHeader ⟨7, 3, 2, 9⟩

def secondBlock : List UInt8 := putChunkHeader ⟨7, 1, 2, 1, 0⟩ ++ [2, 3]

def secondBlockAgain : List UInt8 := putChunkHeader ⟨7, 1, 1, 40, 0⟩ ++ [5]

def firstBlock : List UInt8 := putChunkHeader ⟨7, 0, 1, 0, 0⟩ ++ [1]

def zeroHost : Cpp.Surroundings := ⟨0, 0, fun n => .replicate n 0, false⟩

def zeroGuest : Go.Surroundings := ⟨0, fun n => .replicate n 0⟩

theorem twoBlocks_arrive :
    Arrives 7 2 1024 twoBlocks [] [secondBlock, secondBlockAgain] [1] ∧
      Arrives 7 2 1024 twoBlocks [1] [firstBlock] [1, 0] := by
  constructor
  · refine .first _ _ _ _ ⟨by decide, by decide⟩ (by decide) (by decide) (by decide) (by decide)
      (fun _ _ _ => Or.inr (by simp)) ?_
    exact .again _ _ _ _ ⟨by decide, by decide⟩ (by decide) (.nil _)
  · refine .first _ _ _ _ ⟨by decide, by decide⟩ (by decide) (by decide) (by decide) (by decide)
      ?_ (.nil _)
    intro next hbelow hnext
    cases next with
    | zero => exact Or.inl (by decide)
    | succ next => exact absurd (hbelow 0 (Nat.succ_pos next)) (by decide)

theorem reassemblers_complete_twoBlocks :
    ((Cpp.StreamReassembler.construct {}).handle zeroHost
        .streamStart twoBlocksStart).1.chunkAnswers
      [(zeroHost, secondBlock), (zeroHost, secondBlockAgain), (zeroHost, firstBlock)] =
        [some .ack, some .ack, some ⟨.normal, some ⟨7, 9, [1, 2, 3]⟩⟩] ∧
    ((Go.Reassembler.new 0).handler zeroGuest .streamStart twoBlocksStart).1.chunkAnswers
      [(zeroGuest, secondBlock), (zeroGuest, secondBlockAgain), (zeroGuest, firstBlock)] =
        [some .ack, some .ack, some ⟨.normal, some ⟨7, 9, [1, 2, 3]⟩⟩] := by
  have hstart : parseStreamHeader twoBlocksStart = ⟨7, 3, 2, 9⟩ := by decide
  have hsum : startOf twoBlocks (parseStreamHeader twoBlocksStart).totalChunks =
      (parseStreamHeader twoBlocksStart).totalSize := by rw [hstart]; decide
  have hmissing : ¬ CoversAll (parseStreamHeader twoBlocksStart).totalChunks [1] := by
    rw [hstart]
    exact fun h => absurd (h 0 (by decide)) (by decide)
  have hall : CoversAll (parseStreamHeader twoBlocksStart).totalChunks [1, 0] := by
    rw [hstart]
    intro i hi
    simp only at hi
    simp only [List.mem_cons, List.not_mem_nil]
    omega
  have harr := twoBlocks_arrive
  rw [show (7 : Nat) = (parseStreamHeader twoBlocksStart).streamId by rw [hstart],
    show (2 : Nat) = (parseStreamHeader twoBlocksStart).totalChunks by rw [hstart]] at harr
  constructor
  · have h := (reassemblers_complete.1 {} [] zeroHost
      twoBlocksStart (by decide) (by decide)).delivered twoBlocks
      [(zeroHost, secondBlock), (zeroHost, secondBlockAgain)]
      (zeroHost, firstBlock) [1] [1, 0] hsum (by simp [zeroHost])
      harr.1 hmissing harr.2 hall
    rw [hstart] at h
    exact h
  · have h := (reassemblers_complete.2 0 [] zeroGuest twoBlocksStart
      (by decide) (by decide)).delivered twoBlocks
      [(zeroGuest, secondBlock), (zeroGuest, secondBlockAgain)]
      (zeroGuest, firstBlock) [1] [1, 0] hsum (by simp)
      harr.1 hmissing harr.2 hall
    rw [hstart] at h
    exact h

end ShmIpc.Stream
