import ShmIpc.Library.Counting
import ShmIpc.Library.Halting
import ShmIpc.Stream.Pipeline

/-!
`StreamSender::Send` with whatever window its constructor was given, on a host
that may stop. The thread is alone on its slots, the guest answers every request,
with any reply, and a call of `acquireSlot` is entered before it returns: it tests
`running` once and then waits for a slot of its own choice.
-/

namespace ShmIpc.Stream
open Library

/-- A call of `Send` on a sender whose constructor took `inFlight` as it came. -/
structure AnyCall where
  numSlots : Nat
  maxReqSize : Nat
  inFlight : Int
  base : Int
  data : List UInt8
  streamId : Nat
  appMsgType : Nat

namespace AnyCall

/-- The loop compares the window as an `int`, so that a negative one admits
nothing. As the modulus of the rotation it is a `uint32_t`: for a negative
window that exceeds every `rr`, which is what the modulus 0 means on `Nat`. -/
def call (C : AnyCall) : SendCall :=
  ⟨C.numSlots, C.maxReqSize, C.inFlight.toNat, C.base, C.data, C.streamId, C.appMsgType⟩

/-- What the constructor and `Send` are called with: a slot holds more than a
chunk header, the data fits a stream, and a fixed range is one of valid slots. -/
structure Proper (C : AnyCall) : Prop where
  sized : C.call.Sized
  range : 0 ≤ C.base → C.base < C.numSlots ∧ C.base + C.inFlight ≤ C.numSlots

/-- The windows for which `Send` ends while the host runs. The pool serves as many
chunks at a time as it has slots; a rotation needs a window to rotate in. -/
def Feasible (C : AnyCall) : Prop :=
  if C.base < 0 then
    1 ≤ C.numSlots ∧
      (C.data = [] ∨ 1 ≤ C.inFlight ∧ min (C.call.totalChunks : Int) C.inFlight ≤ C.numSlots)
  else C.inFlight ≠ 0 ∧ (C.data = [] ∨ 1 ≤ C.inFlight)

end AnyCall

/-- Where the thread is with its call of `acquireSlot`. -/
inductive AcquirePc
  | outside
  | inside
  | crashed
  deriving DecidableEq

structure SendLoop where
  send : SendState
  running : Bool
  pc : AcquirePc

inductive LoopAction
  | enter
  | claim (slot : Nat)
  | giveUp
  | proceed
  | timeout
  | answer (slot : Nat) (reply : MsgType)
  | stop

/-- What the sender and the guest do without being timed out or stopped. -/
def LoopAction.isDue : LoopAction → Bool
  | .enter | .claim _ | .proceed | .answer _ _ => true
  | _ => false

namespace SendLoop

def hasReturned (s : SendLoop) : Bool :=
  match s.send.phase with
  | .returned _ => true
  | _ => false

/-- The thread is about to call `acquireSlot` or is inside it. -/
def wantsSlot (C : AnyCall) (s : SendLoop) : Bool :=
  match s.send.phase with
  | .start => true
  | .fill => s.send.canFill C.call
  | _ => false

/-- `acquireSlot` returns -1: the START gives up, the fill loop breaks to drain. -/
def refused (s : SendLoop) : SendLoop :=
  match s.send.phase with
  | .start =>
    { s with send := { s.send with phase := .returned (.failure .resourceExhausted) } }
  | _ => { s with send := { s.send with phase := .drain } }

/-- The call of `acquireSlot` up to its loop. Both index computations divide. -/
def enter (C : AnyCall) (s : SendLoop) : SendLoop :=
  if C.base < 0 then
    if !s.running then s.refused
    else if C.numSlots = 0 then { s with pc := .crashed }
    else { s with pc := .inside }
  else if C.inFlight = 0 then { s with pc := .crashed }
  else if !s.running ∨ C.numSlots ≤ C.base + (s.send.rr % C.call.maxInFlight : Nat) then s.refused
  else { s with pc := .inside }

/-- The worker of a slot answers the request it finds there. -/
def answer (t : SendState) (slot : Nat) (reply : MsgType) : Option SendState :=
  match t.slots slot with
  | .published _ _ => some (t.setSlot slot (.answered reply))
  | .abandoned _ _ => some (t.setSlot slot .idle)
  | _ => none

def step (C : AnyCall) (s : SendLoop) : LoopAction → Option SendLoop
  | .enter => if s.pc = .outside ∧ s.wantsSlot C = true then some (s.enter C) else none
  | .claim slot =>
    if s.pc = .inside then
      (s.send.acquire C.call slot).map fun t => { s with send := t, pc := .outside }
    else none
  | .giveUp =>
    if s.pc = .inside ∧ ∀ slot < C.numSlots, s.send.acquirable C.call slot = false then
      (s.send.acquireTimeout C.call).map fun t => { s with send := t, pc := .outside }
    else none
  | .proceed =>
    if s.pc = .outside then (s.send.proceed C.call).map fun t => { s with send := t } else none
  | .timeout =>
    if s.pc = .outside then s.send.timeout.map fun t => { s with send := t } else none
  | .answer slot reply =>
    if slot < C.numSlots then (answer s.send slot reply).map fun t => { s with send := t }
    else none
  | .stop => if s.running then some { s with running := false } else none

/-- The thread enters `Send` on a running host with every slot free. -/
def start (C : AnyCall) : SendLoop :=
  ⟨⟨.enter, C.data.length, 0, 0, [], fun _ => .idle, .new 0, []⟩, true, .outside⟩

/-- A stop here leaves no slot to be asked for: the START has not asked yet, or
the last chunk is out, or the call is on its way back. -/
def stopsSafely (s : SendLoop) : Bool :=
  s.send.remaining = 0 ||
    match s.send.phase with
    | .enter | .failing _ | .returned _ => true
    | .start => s.pc ≠ .inside
    | _ => false

end SendLoop

/-- The host stops only where `mayStop` allows it. -/
def LoopAction.allowed (mayStop : SendLoop → Bool) (s : SendLoop) : LoopAction → Bool
  | .stop => mayStop s
  | _ => true

/-- `Send` ends, whatever the guest answers and whichever waits time out. -/
def AlwaysReturns (C : AnyCall) (mayStop : SendLoop → Bool) : Prop :=
  Halts (checked (LoopAction.allowed mayStop) (SendLoop.step C)) LoopAction.isDue
    SendLoop.hasReturned (SendLoop.start C)

end ShmIpc.Stream
