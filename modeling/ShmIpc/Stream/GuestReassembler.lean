import Mathlib.Logic.Function.Basic
import ShmIpc.Stream.HostReassembler

/-!
The Go reassembler behind `NewStreamReassembler`. Contexts are referenced, not
copied: the map holds references, a chunk call keeps working on the context it
looked up, and `done` / `dead` tell it what happened to that context meanwhile.
The critical sections are definitions of their own; a handler call that runs
alone is their composition.
-/

namespace ShmIpc.Stream.Go
open Library

def MaxStreamChunks : Nat := 2 ^ 20

def MaxStreamSize : Nat := 2 ^ 30

def MaxConcurrentStreams : Nat := 1024

/-- Ten seconds, in nanoseconds. -/
def DefaultStreamTimeout : Int := 10 * 10 ^ 9

def MaxParkedChunks : Nat := MaxStreamChunks / MaxConcurrentStreams

structure GuestContext extends StreamContext where
  done : Bool
  dead : Bool
  lastSeq : Nat
  started : Int

def GuestContext.new (header : StreamHeader) (buf : List UInt8) : GuestContext where
  toStreamContext := .fresh header.totalSize header.totalChunks header.appMsgType buf
  done := false
  dead := false
  lastSeq := 0
  started := 0

/-- Surroundings of one call: the clock reading and the allocated bytes. -/
structure Surroundings where
  now : Int
  newBuf : (n : Nat) → Vector UInt8 n

structure Reassembler where
  timeout : Int
  streams : Assoc Nat Nat
  heap : Nat → Option GuestContext
  allocated : Nat
  seq : Nat

def Reassembler.new (timeout : Int) : Reassembler where
  timeout := timeout
  streams := ∅
  heap := fun _ => none
  allocated := 0
  seq := 0

namespace Reassembler

def setContext (s : Reassembler) (ref : Nat) (c : GuestContext) : Reassembler :=
  { s with heap := Function.update s.heap ref (some c) }

/-- A new context gets the next reference. -/
def allocate (s : Reassembler) (c : GuestContext) : Reassembler :=
  { s.setContext s.allocated c with allocated := s.allocated + 1 }

def markDead (s : Reassembler) (refs : List Nat) : Reassembler :=
  { s with heap := fun r =>
      if r ∈ refs then (s.heap r).map fun c => { c with dead := true } else s.heap r }

def isExpired (s : Reassembler) (now : Int) (ref : Nat) : Bool :=
  match s.heap ref with
  | some c => now - c.started > s.timeout
  | none => false

/-- The age prune; a timeout that is not positive disables it. -/
def prune (s : Reassembler) (now : Int) : Reassembler :=
  if s.timeout > 0 then
    let expired := (s.streams.entries.map Sigma.snd).filter (s.isExpired now)
    { s.markDead expired with streams := keepIf (fun _ ref => !s.isExpired now ref) s.streams }
  else s

def lastSeqOf (s : Reassembler) (ref : Nat) : Nat :=
  match s.heap ref with
  | some c => c.lastSeq
  | none => 0

/-- The scan for the least recently active stream. It starts from the incoming
id and the largest counter value, as the source does. -/
def oldestID (s : Reassembler) (streamID : Nat) : Nat :=
  (s.streams.entries.foldl
    (fun best e => if s.lastSeqOf e.2 < best.2 then (e.1, s.lastSeqOf e.2) else best)
    (streamID, 2 ^ 64 - 1)).1

def evictOldest (s : Reassembler) (streamID : Nat) : Reassembler :=
  let oldest := s.oldestID streamID
  { s.markDead (s.streams.lookup oldest).toList with streams := s.streams.erase oldest }

/-- A repeated start retires the context it replaces and does not count as
growth; a new stream beyond the cap evicts the least recently active one. -/
def makeRoom (s : Reassembler) (streamID : Nat) : Reassembler :=
  match s.streams.lookup streamID with
  | some prev => s.markDead [prev]
  | none => if count s.streams ≥ MaxConcurrentStreams then s.evictOldest streamID else s

/-- The map-mutex section of a `StreamStart` for an already allocated context. -/
def startSection (s : Reassembler) (now : Int) (streamID ref : Nat) : Reassembler :=
  let s := { s with seq := (s.seq + 1) % 2 ^ 64 }
  let s := (s.prune now).makeRoom streamID
  let s :=
    match s.heap ref with
    | some c => s.setContext ref { c with lastSeq := s.seq, started := now }
    | none => s
  { s with streams := s.streams.insert streamID ref }

/-- The map-mutex section of a chunk call: find the stream and stamp activity. -/
def lookupSection (s : Reassembler) (streamID chunkIndex : Nat) :
    Reassembler × Option Nat :=
  match s.streams.lookup streamID with
  | none => (s, none)
  | some ref =>
    match s.heap ref with
    | none => (s, none)
    | some c =>
      if chunkIndex ≥ c.totalChunks then (s, none)
      else
        let s := { s with seq := (s.seq + 1) % 2 ^ 64 }
        (s.setContext ref { c with lastSeq := s.seq }, some ref)

/-- The context-mutex section of a chunk call. `none` is a context retired
since the lookup. -/
def contextSection (s : Reassembler) (ref chunkIndex dstOffset : Nat) (data : List UInt8) :
    Reassembler × Option ChunkOutcome :=
  match s.heap ref with
  | none => (s, none)
  | some ctx =>
    if ctx.done || ctx.dead then (s, none)
    else
      match ctx.toStreamContext.consume MaxParkedChunks false chunkIndex dstOffset data with
      | (_, .duplicate) => (s, some .duplicate)
      | (c, .accepted) => (s.setContext ref { ctx with toStreamContext := c }, some .accepted)
      | (c, outcome) =>
        (s.setContext ref { ctx with toStreamContext := c, done := true }, some outcome)

/-- Compare-and-delete of a context's map entry. -/
def retire (s : Reassembler) (streamID ref : Nat) : Reassembler :=
  if s.streams.lookup streamID = some ref then
    { s with streams := s.streams.erase streamID }
  else s

def handleStart (s : Reassembler) (env : Surroundings) (req : List UInt8) :
    Reassembler × Answer :=
  if req.length < streamHeaderSize then (s, .error)
  else
    let header := parseStreamHeader req
    if header.totalChunks > MaxStreamChunks ∨ header.totalSize > MaxStreamSize then (s, .error)
    else if header.totalChunks = 0 then
      if header.totalSize ≠ 0 then (s, .error)
      else (s, ⟨.normal, some ⟨header.streamId, header.appMsgType, []⟩⟩)
    else
      let ctx := GuestContext.new header (env.newBuf header.totalSize).toList
      ((s.allocate ctx).startSection env.now header.streamId s.allocated, .ack)

def handleChunk (s : Reassembler) (req : List UInt8) : Reassembler × Answer :=
  if req.length < chunkHeaderSize then (s, .error)
  else
    let header := parseChunkHeader req
    if req.length < chunkHeaderSize + header.payloadSize then (s, .error)
    else
      match s.lookupSection header.streamId header.chunkIndex with
      | (s, none) => (s, .error)
      | (s, some ref) =>
        match s.contextSection ref header.chunkIndex header.dstOffset (chunkPayload req) with
        | (s, none) => (s, .error)
        | (s, some .duplicate) => (s, .ack)
        | (s, some .accepted) => (s, .ack)
        | (s, some .corrupt) => (s.retire header.streamId ref, .error)
        | (s, some (.complete data)) =>
          (s.retire header.streamId ref,
            ⟨.normal, some ⟨header.streamId,
              ((s.heap ref).map fun c => c.appMsgType).getD 0, data⟩⟩)

/-- The handler on a stream message, with no other handler call running;
`none` is a message for the fallback handler. -/
def handler (s : Reassembler) (env : Surroundings) (msgType : MsgType) (req : List UInt8) :
    Reassembler × Option Answer :=
  match msgType with
  | .streamStart => let (s, a) := s.handleStart env req; (s, some a)
  | .streamChunk => let (s, a) := s.handleChunk req; (s, some a)
  | _ => (s, none)

end Reassembler

structure Event where
  env : Surroundings
  msgType : MsgType
  req : List UInt8

/-- The calls of a run, one at a time, and the exchanges they amount to. -/
def Reassembler.run (s : Reassembler) : List Event → Reassembler × List Exchange
  | [] => (s, [])
  | e :: events =>
    let (s, answer) := s.handler e.env e.msgType e.req
    let (s, t) := s.run events
    (s, ⟨e.msgType, e.req, answer⟩ :: t)

end ShmIpc.Stream.Go
