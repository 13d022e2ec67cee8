import ShmIpc.Library.Transition
import ShmIpc.Stream.MapSections

/-!
Handler calls of the Go reassembler running at the same time. A call is a sequence of
atomic steps: the map-mutex section, the retired test once the context lock is taken,
the rest of the context section, the compare-and-delete and the callback. The map mutex
is never held across steps, so it does not appear in the state; a context lock is held
from the retired test to the end of the section, during which a start may still mark
the context dead.

The trace is an observer's record of the steps. No step reads it.
-/

namespace ShmIpc.Stream.Go
open Library

namespace Reassembler

/-- The test a chunk call makes right after taking the context lock. -/
def isRetired (s : Reassembler) (ref : Nat) : Bool :=
  match s.heap ref with
  | some c => c.done || c.dead
  | none => true

/-- The context section of a chunk call behind the retired test. -/
def consumeSection (s : Reassembler) (ref chunkIndex dstOffset : Nat) (data : List UInt8) :
    Reassembler × ChunkOutcome :=
  match s.heap ref with
  | none => (s, .corrupt)
  | some ctx =>
    match ctx.toStreamContext.consume MaxParkedChunks false chunkIndex dstOffset data with
    | (_, .duplicate) => (s, .duplicate)
    | (c, .accepted) => (s.setContext ref { ctx with toStreamContext := c }, .accepted)
    | (c, outcome) =>
      (s.setContext ref { ctx with toStreamContext := c, done := true }, outcome)

theorem contextSection_eq (s : Reassembler) (ref chunkIndex dstOffset : Nat)
    (data : List UInt8) :
    s.contextSection ref chunkIndex dstOffset data =
      if s.isRetired ref then (s, none)
      else ((s.consumeSection ref chunkIndex dstOffset data).1,
        some (s.consumeSection ref chunkIndex dstOffset data).2) := by
  cases hctx : s.heap ref with
  | none => simp only [contextSection, isRetired, hctx, if_true]
  | some ctx =>
    simp only [contextSection, isRetired, consumeSection, hctx]
    cases ctx.done || ctx.dead with
    | true => rfl
    | false =>
      cases ctx.toStreamContext.consume MaxParkedChunks false chunkIndex dstOffset data with
      | mk c outcome =>
        cases outcome with
        | duplicate | accepted | corrupt | complete => rfl

end Reassembler

/-- Where a handler call stands. `retiring` carries the assembled bytes of a stream
that completed, `delivering` the context whose bytes are handed over; a stream without
chunks has none. -/
inductive HandlerPc
  | idle
  | starting (header : StreamHeader) (ref : Nat)
  | looking (req : List UInt8)
  | entering (req : List UInt8) (ref : Nat)
  | holding (req : List UInt8) (ref : Nat)
  | retiring (req : List UInt8) (ref : Nat) (data : Option (List UInt8))
  | delivering (ref : Option Nat) (delivery : Delivery)
  | answering (reply : MsgType)
  deriving DecidableEq

inductive HandlerEvent
  /-- A map section advanced the activity counter. -/
  | stamped
  /-- A context section answered a chunk with `NORMAL`, first or repeated. -/
  | acknowledged (ref : Nat) (req : List UInt8)
  | dropped (ref : Nat)
  | delivered (ref : Option Nat) (delivery : Delivery)
  deriving DecidableEq

/-- The part of a call before its first section: checks, and the allocation of a new
context outside the map mutex. Messages that are not stream messages go to the fallback
handler. -/
def beginCall (r : Reassembler) (newBuf : (n : Nat) → Vector UInt8 n) (msgType : MsgType)
    (req : List UInt8) : Option (Reassembler × HandlerPc) :=
  match msgType with
  | .streamStart =>
    if req.length < streamHeaderSize then some (r, .answering .systemError)
    else
      let header := parseStreamHeader req
      if header.totalChunks > MaxStreamChunks ∨ header.totalSize > MaxStreamSize then
        some (r, .answering .systemError)
      else if header.totalChunks = 0 then
        if header.totalSize ≠ 0 then some (r, .answering .systemError)
        else some (r, .delivering none ⟨header.streamId, header.appMsgType, []⟩)
      else
        some (r.allocate (.new header (newBuf header.totalSize).toList),
          .starting header r.allocated)
  | .streamChunk =>
    if req.length < chunkHeaderSize then some (r, .answering .systemError)
    else if req.length < chunkHeaderSize + (parseChunkHeader req).payloadSize then
      some (r, .answering .systemError)
    else some (r, .looking req)
  | _ => none

/-- The next step of a call. The clock reading is the one a start takes under the map
mutex. -/
def handlerStep (r : Reassembler) (locked : Nat → Bool) (now : Int) :
    HandlerPc → Option (Reassembler × (Nat → Bool) × HandlerPc × List HandlerEvent)
  | .idle => none
  | .starting header ref =>
    some (r.startSection now header.streamId ref, locked, .answering .normal, [.stamped])
  | .looking req =>
    match r.lookupSection (parseChunkHeader req).streamId (parseChunkHeader req).chunkIndex with
    | (r, none) => some (r, locked, .answering .systemError, [])
    | (r, some ref) => some (r, locked, .entering req ref, [.stamped])
  | .entering req ref =>
    if locked ref then none
    else if r.isRetired ref then some (r, locked, .answering .systemError, [])
    else some (r, Function.update locked ref true, .holding req ref, [])
  | .holding req ref =>
    let locked := Function.update locked ref false
    match r.consumeSection ref (parseChunkHeader req).chunkIndex
        (parseChunkHeader req).dstOffset (chunkPayload req) with
    | (r, .duplicate) => some (r, locked, .answering .normal, [.acknowledged ref req])
    | (r, .accepted) => some (r, locked, .answering .normal, [.acknowledged ref req])
    | (r, .corrupt) => some (r, locked, .retiring req ref none, [.dropped ref])
    | (r, .complete data) =>
      some (r, locked, .retiring req ref (some data), [.acknowledged ref req])
  | .retiring req ref data =>
    let pc :=
      match data with
      | none => .answering .systemError
      | some data => .delivering (some ref) ⟨(parseChunkHeader req).streamId,
          ((r.heap ref).map fun c => c.appMsgType).getD 0, data⟩
    some (r.retire (parseChunkHeader req).streamId ref, locked, pc, [])
  | .delivering ref delivery =>
    some (r, locked, .answering .normal, [.delivered ref delivery])
  | .answering _ => some (r, locked, .idle, [])

structure HandlerSystem (Tid : Type) where
  reassembler : Reassembler
  locked : Nat → Bool
  thread : Tid → HandlerPc
  trace : List HandlerEvent

inductive HandlerAction (Tid : Type)
  | call (t : Tid) (newBuf : (n : Nat) → Vector UInt8 n) (msgType : MsgType) (req : List UInt8)
  | advance (t : Tid) (now : Int)

variable {Tid : Type} [DecidableEq Tid]

namespace HandlerSystem

def start (Tid : Type) (timeout : Int) : HandlerSystem Tid where
  reassembler := .new timeout
  locked := fun _ => false
  thread := fun _ => .idle
  trace := []

def step (s : HandlerSystem Tid) : HandlerAction Tid → Option (HandlerSystem Tid)
  | .call t newBuf msgType req =>
    if s.thread t = .idle then
      (beginCall s.reassembler newBuf msgType req).map fun out =>
        { s with reassembler := out.1, thread := Function.update s.thread t out.2 }
    else none
  | .advance t now =>
    (handlerStep s.reassembler s.locked now (s.thread t)).map fun out =>
      { reassembler := out.1, locked := out.2.1, thread := Function.update s.thread t out.2.2.1,
        trace := s.trace ++ out.2.2.2 }

end HandlerSystem

def HandlerPc.ref : HandlerPc → Option Nat
  | .starting _ ref | .entering _ ref | .holding _ ref | .retiring _ ref _ => some ref
  | .delivering ref _ => ref
  | .idle | .looking _ | .answering _ => none

/-- The context no other call works on past its own retired test. -/
def HandlerPc.owned : HandlerPc → Option Nat
  | .starting _ ref | .holding _ ref | .retiring _ ref _ => some ref
  | .delivering ref _ => ref
  | .idle | .looking _ | .entering _ _ | .answering _ => none

theorem HandlerPc.ref_of_owned {pc : HandlerPc} {ref : Nat} (h : pc.owned = some ref) :
    pc.ref = some ref := by
  cases pc with
  | idle | looking | entering | answering => cases h
  | starting | holding | retiring | delivering => exact h

def HandlerSystem.move (s : HandlerSystem Tid) (t : Tid) (r : Reassembler)
    (locked : Nat → Bool) (pc : HandlerPc) (events : List HandlerEvent) : HandlerSystem Tid where
  reassembler := r
  locked := locked
  thread := Function.update s.thread t pc
  trace := s.trace ++ events

theorem move_self (s : HandlerSystem Tid) (t : Tid) (r : Reassembler) (locked : Nat → Bool)
    (pc : HandlerPc) (events : List HandlerEvent) :
    (s.move t r locked pc events).thread t = pc :=
  Function.update_self _ _ _

theorem move_other (s : HandlerSystem Tid) (t : Tid) (r : Reassembler) (locked : Nat → Bool)
    (pc : HandlerPc) (events : List HandlerEvent) {u : Tid} (hu : u ≠ t) :
    (s.move t r locked pc events).thread u = s.thread u :=
  Function.update_of_ne hu _ _

namespace Reassembler

/-- What the context section leaves behind. -/
def settled (r : Reassembler) (ref : Nat) (ctx : GuestContext) (c : StreamContext) :
    ChunkOutcome → Reassembler
  | .duplicate => r
  | .accepted => r.setContext ref { ctx with toStreamContext := c }
  | .corrupt | .complete _ => r.setContext ref { ctx with toStreamContext := c, done := true }

end Reassembler

def HandlerPc.afterConsume (req : List UInt8) (ref : Nat) : ChunkOutcome → HandlerPc
  | .duplicate | .accepted => .answering .normal
  | .corrupt => .retiring req ref none
  | .complete data => .retiring req ref (some data)

def HandlerEvent.ofConsume (req : List UInt8) (ref : Nat) : ChunkOutcome → HandlerEvent
  | .duplicate | .accepted | .complete _ => .acknowledged ref req
  | .corrupt => .dropped ref

def HandlerPc.afterRetire (r : Reassembler) (req : List UInt8) (ref : Nat) :
    Option (List UInt8) → HandlerPc
  | none => .answering .systemError
  | some data => .delivering (some ref) ⟨(parseChunkHeader req).streamId,
      ((r.heap ref).map fun c => c.appMsgType).getD 0, data⟩

/-- Everything a step of a call can do. -/
inductive HandlerChange (s : HandlerSystem Tid) (t : Tid) (now : Int) : HandlerSystem Tid → Prop
  /-- Checks, refusals and returns. -/
  | pass (pc : HandlerPc) (hfrom : (s.thread t).owned = none) (hto : pc.ref = none) :
      HandlerChange s t now (s.move t s.reassembler s.locked pc [])
  | openStream (header : StreamHeader) (buf : List UInt8) (hpc : s.thread t = .idle)
      (hbuf : buf.length = header.totalSize) (hsize : header.totalSize ≤ 2 ^ 30)
      (hchunks : header.totalChunks < 2 ^ 32) (hpos : 0 < header.totalChunks) :
      HandlerChange s t now (s.move t (s.reassembler.allocate (.new header buf)) s.locked
        (.starting header s.reassembler.allocated) [])
  | install (header : StreamHeader) (ref : Nat)
      (hpc : s.thread t = .starting header ref) :
      HandlerChange s t now (s.move t (s.reassembler.startSection now header.streamId ref) s.locked
        (.answering .normal) [.stamped])
  | found (req : List UInt8) (ref : Nat) (c : GuestContext) (hpc : s.thread t = .looking req)
      (hlook : s.reassembler.streams.lookup (parseChunkHeader req).streamId = some ref)
      (hc : s.reassembler.heap ref = some c)
      (hindex : (parseChunkHeader req).chunkIndex < c.totalChunks) :
      HandlerChange s t now (s.move t
        (({ s.reassembler with seq := (s.reassembler.seq + 1) % 2 ^ 64 } : Reassembler).setContext
          ref { c with lastSeq := (s.reassembler.seq + 1) % 2 ^ 64 })
        s.locked (.entering req ref) [.stamped])
  | enter (req : List UInt8) (ref : Nat) (c : GuestContext) (hpc : s.thread t = .entering req ref)
      (hfree : s.locked ref = false) (hc : s.reassembler.heap ref = some c)
      (hdone : c.done = false) (hdead : c.dead = false) :
      HandlerChange s t now (s.move t s.reassembler (Function.update s.locked ref true)
        (.holding req ref) [])
  | consume (req : List UInt8) (ref : Nat) (ctx : GuestContext) (c : StreamContext)
      (outcome : ChunkOutcome) (hpc : s.thread t = .holding req ref)
      (hctx : s.reassembler.heap ref = some ctx)
      (hc : ctx.toStreamContext.consume MaxParkedChunks false (parseChunkHeader req).chunkIndex
        (parseChunkHeader req).dstOffset (chunkPayload req) = (c, outcome)) :
      HandlerChange s t now (s.move t (s.reassembler.settled ref ctx c outcome)
        (Function.update s.locked ref false) (.afterConsume req ref outcome)
        [.ofConsume req ref outcome])
  | retire (req : List UInt8) (ref : Nat) (data : Option (List UInt8))
      (hpc : s.thread t = .retiring req ref data) :
      HandlerChange s t now (s.move t
        (s.reassembler.retire (parseChunkHeader req).streamId ref) s.locked
        (.afterRetire s.reassembler req ref data) [])
  | deliver (ref : Option Nat) (delivery : Delivery) (hpc : s.thread t = .delivering ref delivery) :
      HandlerChange s t now (s.move t s.reassembler s.locked (.answering .normal)
        [.delivered ref delivery])

theorem move_nil (s : HandlerSystem Tid) (t : Tid) (r : Reassembler) (pc : HandlerPc) :
    s.move t r s.locked pc [] =
      { s with reassembler := r, thread := Function.update s.thread t pc } := by
  simp only [HandlerSystem.move, List.append_nil]

theorem call_change {s s' : HandlerSystem Tid} {t : Tid} {newBuf : (n : Nat) → Vector UInt8 n}
    {msgType : MsgType} {req : List UInt8}
    (h : s.step (.call t newBuf msgType req) = some s') (now : Int) :
    HandlerChange s t now s' := by
  simp only [HandlerSystem.step] at h
  split at h
  · next hidle =>
      have howned : (s.thread t).owned = none := by rw [hidle]; rfl
      obtain ⟨⟨r, pc⟩, hbegin, rfl⟩ := Option.map_eq_some_iff.mp h
      rw [← move_nil]
      simp only [beginCall] at hbegin
      split at hbegin
      · split at hbegin
        · cases hbegin
          exact .pass _ howned rfl
        · split at hbegin
          · cases hbegin
            exact .pass _ howned rfl
          · next hbounds =>
              simp only [MaxStreamSize] at hbounds
              split at hbegin
              · split at hbegin
                · cases hbegin
                  exact .pass _ howned rfl
                · cases hbegin
                  exact .pass _ howned rfl
              · next hpos =>
                  cases hbegin
                  exact .openStream _ _ hidle (by simp) (by omega)
                    (parseStreamHeader_inRange req).totalChunks (by omega)
      · split at hbegin
        · cases hbegin
          exact .pass _ howned rfl
        · split at hbegin
          · cases hbegin
            exact .pass _ howned rfl
          · cases hbegin
            exact .pass _ howned rfl
      · cases hbegin
  · cases h

theorem advance_change {s s' : HandlerSystem Tid} {t : Tid} {now : Int}
    (hstored : ∀ ref, (s.thread t).ref = some ref → ∃ c, s.reassembler.heap ref = some c)
    (h : s.step (.advance t now) = some s') : HandlerChange s t now s' := by
  simp only [HandlerSystem.step] at h
  obtain ⟨⟨r, locked, pc, events⟩, hstep, rfl⟩ := Option.map_eq_some_iff.mp h
  change HandlerChange s t now (s.move t r locked pc events)
  cases hpc : s.thread t with
  | idle => rw [hpc] at hstep; cases hstep
  | starting header ref =>
    rw [hpc] at hstep
    cases hstep
    exact .install header ref hpc
  | looking req =>
    have howned : (s.thread t).owned = none := by rw [hpc]; rfl
    rw [hpc] at hstep
    simp only [handlerStep, Reassembler.lookupSection] at hstep
    cases hlook : s.reassembler.streams.lookup (parseChunkHeader req).streamId with
    | none =>
      simp only [hlook] at hstep
      cases hstep
      exact .pass _ howned rfl
    | some ref =>
      simp only [hlook] at hstep
      cases hc : s.reassembler.heap ref with
      | none =>
        simp only [hc] at hstep
        cases hstep
        exact .pass _ howned rfl
      | some c =>
        simp only [hc] at hstep
        by_cases hindex : (parseChunkHeader req).chunkIndex ≥ c.totalChunks
        · rw [if_pos hindex] at hstep
          cases hstep
          exact .pass _ howned rfl
        · rw [if_neg hindex] at hstep
          cases hstep
          exact .found req ref c hpc hlook hc (by omega)
  | entering req ref =>
    have howned : (s.thread t).owned = none := by rw [hpc]; rfl
    rw [hpc] at hstep
    simp only [handlerStep] at hstep
    split at hstep
    · cases hstep
    · next hfree =>
        split at hstep
        · cases hstep
          exact .pass _ howned rfl
        · next hlive =>
            cases hstep
            cases hc : s.reassembler.heap ref with
            | none => simp [Reassembler.isRetired, hc] at hlive
            | some c =>
              simp only [Reassembler.isRetired, hc, Bool.or_eq_true, not_or,
                Bool.not_eq_true] at hlive
              exact .enter req ref c hpc (by simpa using hfree) hc hlive.1 hlive.2
  | holding req ref =>
    obtain ⟨ctx, hctx⟩ := hstored ref (by rw [hpc]; rfl)
    rw [hpc] at hstep
    simp only [handlerStep, Reassembler.consumeSection, hctx] at hstep
    cases hc : ctx.toStreamContext.consume MaxParkedChunks false
        (parseChunkHeader req).chunkIndex (parseChunkHeader req).dstOffset
        (chunkPayload req) with
    | mk c outcome =>
      have hchange : HandlerChange s t now _ := .consume req ref ctx c outcome hpc hctx hc
      simp only [hc] at hstep
      cases outcome with
      | duplicate | accepted | corrupt | complete data =>
        cases hstep
        exact hchange
  | retiring req ref data =>
    have hchange : HandlerChange s t now _ := .retire req ref data hpc
    rw [hpc] at hstep
    cases data with
    | none | some data =>
      cases hstep
      exact hchange
  | delivering ref delivery =>
    rw [hpc] at hstep
    cases hstep
    exact .deliver ref delivery hpc
  | answering reply =>
    have howned : (s.thread t).owned = none := by rw [hpc]; rfl
    rw [hpc] at hstep
    cases hstep
    exact .pass _ howned rfl

section Alone

/-- The call `t` stands at `pc`, every other call is between two messages. -/
structure StandsAlone (s : HandlerSystem Tid) (t : Tid) (pc : HandlerPc) (r : Reassembler)
    (locked : Nat → Bool) : Prop where
  reassembler : s.reassembler = r
  locked : s.locked = locked
  thread : s.thread t = pc
  others : ∀ u, u ≠ t → s.thread u = .idle

theorem StandsAlone.advance {s : HandlerSystem Tid} {t : Tid} {pc pc' : HandlerPc}
    {r r' : Reassembler} {locked locked' : Nat → Bool} {events : List HandlerEvent}
    (h : StandsAlone s t pc r locked) (now : Int)
    (hstep : handlerStep r locked now pc = some (r', locked', pc', events)) :
    ∃ s', Reachable HandlerSystem.step (fun _ _ => True) s s' ∧
      StandsAlone s' t pc' r' locked' := by
  refine ⟨s.move t r' locked' pc' events, .step s _ (.advance t now) .start trivial ?_, ?_⟩
  · simp only [HandlerSystem.step, h.reassembler, h.locked, h.thread, hstep, Option.map_some]
    rfl
  · exact ⟨rfl, rfl, move_self _ _ _ _ _ _,
      fun u hu => (move_other _ _ _ _ _ _ hu).trans (h.others u hu)⟩

theorem StandsAlone.call {s : HandlerSystem Tid} {t : Tid} {pc : HandlerPc}
    {r r' : Reassembler} {locked : Nat → Bool} (h : StandsAlone s t .idle r locked)
    (newBuf : (n : Nat) → Vector UInt8 n) (msgType : MsgType) (req : List UInt8)
    (hbegin : beginCall r newBuf msgType req = some (r', pc)) :
    ∃ s', Reachable HandlerSystem.step (fun _ _ => True) s s' ∧ StandsAlone s' t pc r' locked := by
  refine ⟨{ s with reassembler := r', thread := Function.update s.thread t pc },
    .step s _ (.call t newBuf msgType req) .start trivial ?_, ?_⟩
  · simp only [HandlerSystem.step, h.thread, if_true, h.reassembler, hbegin, Option.map_some]
  · exact ⟨rfl, h.locked, Function.update_self _ _ _,
      fun u hu => (Function.update_of_ne hu _ _).trans (h.others u hu)⟩

/-- The call of `t` can run to its end on its own and then leaves `r`. -/
def Serves (s : HandlerSystem Tid) (t : Tid) (r : Reassembler) : Prop :=
  ∃ s', Reachable HandlerSystem.step (fun _ _ => True) s s' ∧
    StandsAlone s' t .idle r fun _ => false

theorem StandsAlone.serves {s : HandlerSystem Tid} {t : Tid} {pc pc' : HandlerPc}
    {r r' r'' : Reassembler} {locked locked' : Nat → Bool} {events : List HandlerEvent}
    (h : StandsAlone s t pc r locked) (now : Int)
    (hstep : handlerStep r locked now pc = some (r', locked', pc', events))
    (hrest : ∀ s', StandsAlone s' t pc' r' locked' → Serves s' t r'') : Serves s t r'' := by
  obtain ⟨s₁, hreach, h₁⟩ := h.advance now hstep
  obtain ⟨s₂, hreach', h₂⟩ := hrest s₁ h₁
  exact ⟨s₂, hreach.trans hreach', h₂⟩

theorem StandsAlone.answers {s : HandlerSystem Tid} {t : Tid} {reply : MsgType}
    {r : Reassembler} (h : StandsAlone s t (.answering reply) r fun _ => false) :
    Serves s t r :=
  h.serves 0 rfl fun s' h' => ⟨s', .start, h'⟩

variable {s : HandlerSystem Tid} {t : Tid} {r : Reassembler}

theorem serves_start (h : StandsAlone s t .idle r fun _ => false) (env : Surroundings)
    (req : List UInt8) : Serves s t (r.handleStart env req).1 := by
  have hbegin : ∀ r' pc, beginCall r env.newBuf .streamStart req = some (r', pc) →
      (∀ s', StandsAlone s' t pc r' (fun _ => false) → Serves s' t (r.handleStart env req).1) →
      Serves s t (r.handleStart env req).1 := by
    intro r' pc hcall hrest
    obtain ⟨s₁, hreach, h₁⟩ := h.call env.newBuf .streamStart req hcall
    obtain ⟨s₂, hreach', h₂⟩ := hrest s₁ h₁
    exact ⟨s₂, hreach.trans hreach', h₂⟩
  by_cases hshort : req.length < streamHeaderSize
  · refine hbegin r (.answering .systemError) (by simp only [beginCall, hshort, if_true]) ?_
    intro s' h'
    simp only [Reassembler.handleStart, hshort, if_true]
    exact h'.answers
  by_cases hbounds : (parseStreamHeader req).totalChunks > MaxStreamChunks ∨
      (parseStreamHeader req).totalSize > MaxStreamSize
  · refine hbegin r (.answering .systemError)
      (by simp only [beginCall, hshort, hbounds, if_true, if_false]) ?_
    intro s' h'
    simp only [Reassembler.handleStart, hshort, hbounds, if_true, if_false]
    exact h'.answers
  by_cases hzero : (parseStreamHeader req).totalChunks = 0
  · by_cases hempty : (parseStreamHeader req).totalSize = 0
    · refine hbegin r (.delivering none ⟨(parseStreamHeader req).streamId,
        (parseStreamHeader req).appMsgType, []⟩) ?_ ?_
      · simp only [beginCall, hshort, hbounds, if_false]
        simp only [hzero, hempty, if_true, ne_eq, not_true_eq_false, if_false]
      · intro s' h'
        simp only [Reassembler.handleStart, hshort, hbounds, if_false]
        simp only [hzero, hempty, if_true, ne_eq, not_true_eq_false, if_false]
        exact h'.serves 0 rfl fun s'' h'' => h''.answers
    · refine hbegin r (.answering .systemError) ?_ ?_
      · simp only [beginCall, hshort, hbounds, if_false]
        simp only [hzero, hempty, if_true, ne_eq, not_false_eq_true]
      · intro s' h'
        simp only [Reassembler.handleStart, hshort, hbounds, if_false]
        simp only [hzero, hempty, if_true, ne_eq, not_false_eq_true]
        exact h'.answers
  · refine hbegin _ _ (by simp only [beginCall, hshort, hbounds, hzero, if_false]; rfl) ?_
    intro s' h'
    simp only [Reassembler.handleStart, hshort, hbounds, hzero, if_false]
    exact h'.serves env.now rfl fun s'' h'' => h''.answers

theorem serves_context (req : List UInt8) (ref : Nat)
    (h : StandsAlone s t (.entering req ref) r fun _ => false) :
    Serves s t (match r.contextSection ref (parseChunkHeader req).chunkIndex
        (parseChunkHeader req).dstOffset (chunkPayload req) with
      | (r, some .corrupt) | (r, some (.complete _)) =>
        r.retire (parseChunkHeader req).streamId ref
      | (r, _) => r) := by
  have hunlock : Function.update (Function.update (fun _ : Nat => false) ref true) ref false =
      fun _ => false := by
    rw [Function.update_idem]
    exact Function.update_eq_self ref fun _ : Nat => false
  rw [Reassembler.contextSection_eq]
  cases hretired : r.isRetired ref with
  | true =>
    exact h.serves 0
      (by simp only [handlerStep, hretired, Bool.false_eq_true, if_false, if_true]; rfl)
      fun s' h' => h'.answers
  | false =>
    refine h.serves 0 (by simp only [handlerStep, hretired, Bool.false_eq_true, if_false]; rfl) ?_
    intro s' h'
    cases hconsume : r.consumeSection ref (parseChunkHeader req).chunkIndex
        (parseChunkHeader req).dstOffset (chunkPayload req) with
    | mk r' outcome =>
      have hstep : handlerStep r (Function.update (fun _ => false) ref true) 0
          (.holding req ref) = some (r', fun _ => false, .afterConsume req ref outcome,
            [.ofConsume req ref outcome]) := by
        simp only [handlerStep, hconsume, hunlock]
        cases outcome with
        | duplicate | accepted | corrupt | complete => rfl
      refine h'.serves 0 hstep ?_
      intro s'' h''
      cases outcome with
      | duplicate | accepted => exact h''.answers
      | corrupt => exact h''.serves 0 rfl fun _ h₃ => h₃.answers
      | complete data =>
        exact h''.serves 0 rfl fun _ h₃ => h₃.serves 0 rfl fun _ h₄ => h₄.answers

theorem serves_chunk (h : StandsAlone s t .idle r fun _ => false)
    (newBuf : (n : Nat) → Vector UInt8 n) (req : List UInt8) :
    Serves s t (r.handleChunk req).1 := by
  have hbegin : ∀ pc, beginCall r newBuf .streamChunk req = some (r, pc) →
      (∀ s', StandsAlone s' t pc r (fun _ => false) → Serves s' t (r.handleChunk req).1) →
      Serves s t (r.handleChunk req).1 := by
    intro pc hcall hrest
    obtain ⟨s₁, hreach, h₁⟩ := h.call newBuf .streamChunk req hcall
    obtain ⟨s₂, hreach', h₂⟩ := hrest s₁ h₁
    exact ⟨s₂, hreach.trans hreach', h₂⟩
  by_cases hshort : req.length < chunkHeaderSize
  · refine hbegin (.answering .systemError) (by simp only [beginCall, hshort, if_true]) ?_
    intro s' h'
    simp only [Reassembler.handleChunk, hshort, if_true]
    exact h'.answers
  by_cases hcut : req.length < chunkHeaderSize + (parseChunkHeader req).payloadSize
  · refine hbegin (.answering .systemError)
      (by simp only [beginCall, hshort, hcut, if_true, if_false]) ?_
    intro s' h'
    simp only [Reassembler.handleChunk, hshort, hcut, if_true, if_false]
    exact h'.answers
  · refine hbegin (.looking req) (by simp only [beginCall, hshort, hcut, if_false]) ?_
    intro s' h'
    simp only [Reassembler.handleChunk, hshort, hcut, if_false]
    cases hlookup : r.lookupSection (parseChunkHeader req).streamId
        (parseChunkHeader req).chunkIndex with
    | mk r' found =>
      cases found with
      | none =>
        exact h'.serves 0 (by simp only [handlerStep, hlookup]; rfl) fun s'' h'' => h''.answers
      | some ref =>
        refine h'.serves 0 (by simp only [handlerStep, hlookup]; rfl) ?_
        intro s'' h''
        have hserves := serves_context req ref h''
        dsimp only
        cases hcontext : r'.contextSection ref (parseChunkHeader req).chunkIndex
            (parseChunkHeader req).dstOffset (chunkPayload req) with
        | mk r'' outcome =>
          rw [hcontext] at hserves
          cases outcome with
          | none => exact hserves
          | some outcome =>
            cases outcome with
            | duplicate | accepted | corrupt | complete => exact hserves

theorem serves_handler (h : StandsAlone s t .idle r fun _ => false) (env : Surroundings)
    (msgType : MsgType) (req : List UInt8)
    (hstream : msgType = .streamStart ∨ msgType = .streamChunk) :
    Serves s t (r.handler env msgType req).1 := by
  rcases hstream with rfl | rfl
  · exact serves_start h env req
  · exact serves_chunk h env.newBuf req

end Alone

end ShmIpc.Stream.Go
