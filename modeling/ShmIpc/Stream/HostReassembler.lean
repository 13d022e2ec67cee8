import ShmIpc.Stream.Context
import ShmIpc.Stream.Wire

/-!
The C++ `StreamReassembler`. One mutex covers every map access of a call, so a
call is one step on the map of in-flight streams. What a call takes from its
surroundings (two clock readings, the bytes a fresh buffer happens to hold, and
whether its allocation succeeds) is passed in.
-/

namespace ShmIpc.Stream
open Library

/-- One invocation of the completion callback. -/
structure Delivery where
  streamId : Nat
  appMsgType : Nat
  data : List UInt8
  deriving DecidableEq, Repr

/-- What a stream message is answered with, and the callback it made. -/
structure Answer where
  reply : MsgType
  delivered : Option Delivery
  deriving DecidableEq, Repr

def Answer.error : Answer := ⟨.systemError, none⟩

def Answer.ack : Answer := ⟨.normal, none⟩

/-- One message and what became of it; no answer means it was not a stream
message. -/
structure Exchange where
  msgType : MsgType
  req : List UInt8
  answer : Option Answer
  deriving DecidableEq, Repr

namespace Cpp

def kMaxStreamSize : Nat := 2 ^ 30

structure StreamReassemblerConfig where
  maxStreamSize : Nat := kMaxStreamSize
  maxStreamChunks : Nat := 2 ^ 20
  maxStreams : Nat := 1024
  maxParkedChunks : Nat := 1024
  streamTimeoutMs : Nat := 10000

def StreamReassemblerConfig.isValid (cfg : StreamReassemblerConfig) : Bool :=
  cfg.maxStreamSize ≤ kMaxStreamSize

/-- The configuration in force after the constructor. -/
def StreamReassemblerConfig.clamp (cfg : StreamReassemblerConfig) : StreamReassemblerConfig :=
  if !cfg.isValid then { cfg with maxStreamSize := kMaxStreamSize } else cfg

structure HostContext extends StreamContext where
  startTime : Int

/-- Surroundings of one call. Times are in nanoseconds of the steady clock. -/
structure Surroundings where
  pruneTime : Int
  startTime : Int
  newBuf : (n : Nat) → Vector UInt8 n
  allocFails : Bool

structure StreamReassembler where
  config : StreamReassemblerConfig
  streams : Assoc Nat HostContext

def StreamReassembler.construct (cfg : StreamReassemblerConfig) : StreamReassembler :=
  ⟨cfg.clamp, ∅⟩

namespace StreamReassembler

def elapsedMs (now startTime : Int) : Int :=
  (now - startTime).tdiv 1000000

def pruneInternal (r : StreamReassembler) (now : Int) : StreamReassembler :=
  let isLive := fun (_ : Nat) (c : HostContext) =>
    !decide (elapsedMs now c.startTime > r.config.streamTimeoutMs)
  { r with streams := keepIf isLive r.streams }

def handleStart (r : StreamReassembler) (env : Surroundings) (req : List UInt8) :
    StreamReassembler × Answer :=
  if req.length < streamHeaderSize then (r, .error)
  else
    let header := parseStreamHeader req
    if header.totalSize > r.config.maxStreamSize ∨
        header.totalChunks > r.config.maxStreamChunks then (r, .error)
    else if header.totalChunks = 0 then
      if header.totalSize ≠ 0 then (r, .error)
      else (r, ⟨.normal, some ⟨header.streamId, header.appMsgType, []⟩⟩)
    else
      let r := r.pruneInternal env.pruneTime
      if count r.streams ≥ r.config.maxStreams then (r, .error)
      else if env.allocFails then (r, .error)
      else
        let ctx : HostContext :=
          { StreamContext.fresh header.totalSize header.totalChunks header.appMsgType
              (env.newBuf header.totalSize).toList with
            startTime := env.startTime }
        ({ r with streams := r.streams.insert header.streamId ctx }, .ack)

def handleChunk (r : StreamReassembler) (env : Surroundings) (req : List UInt8) :
    StreamReassembler × Answer :=
  if req.length < chunkHeaderSize then (r, .error)
  else
    let header := parseChunkHeader req
    if req.length < chunkHeaderSize + header.payloadSize then (r, .error)
    else
      match r.streams.lookup header.streamId with
      | none => (r, .error)
      | some ctx =>
        if header.chunkIndex ≥ ctx.totalChunks then (r, .error)
        else
          match ctx.toStreamContext.consume r.config.maxParkedChunks env.allocFails
              header.chunkIndex header.dstOffset (chunkPayload req) with
          | (_, .duplicate) => (r, .ack)
          | (c, .accepted) =>
            let ctx : HostContext := { c with startTime := ctx.startTime }
            ({ r with streams := r.streams.insert header.streamId ctx }, .ack)
          | (_, .corrupt) =>
            ({ r with streams := r.streams.erase header.streamId }, .error)
          | (_, .complete data) =>
            ({ r with streams := r.streams.erase header.streamId },
              ⟨.normal, some ⟨header.streamId, ctx.appMsgType, data⟩⟩)

/-- `Handle`; `none` is its `false`, a message that is not a stream message. -/
def handle (r : StreamReassembler) (env : Surroundings) (msgType : MsgType)
    (req : List UInt8) : StreamReassembler × Option Answer :=
  match msgType with
  | .streamStart => let (r, a) := r.handleStart env req; (r, some a)
  | .streamChunk => let (r, a) := r.handleChunk env req; (r, some a)
  | _ => (r, none)

def prune (r : StreamReassembler) (now : Int) : StreamReassembler :=
  r.pruneInternal now

end StreamReassembler

inductive Event
  | message (env : Surroundings) (msgType : MsgType) (req : List UInt8)
  | prune (now : Int)

namespace StreamReassembler

def apply (r : StreamReassembler) : Event → StreamReassembler × List Exchange
  | .message env msgType req =>
    let (r, answer) := r.handle env msgType req
    (r, [⟨msgType, req, answer⟩])
  | .prune now => (r.prune now, [])

/-- The calls of a run, one at a time, and the exchanges they amount to. -/
def run (r : StreamReassembler) : List Event → StreamReassembler × List Exchange
  | [] => (r, [])
  | e :: events =>
    let (r, t) := r.apply e
    let (r, t') := r.run events
    (r, t ++ t')

end StreamReassembler

end Cpp

end ShmIpc.Stream
