import ShmIpc.Library.Family
import ShmIpc.Slots.Account

/-!
A process that makes its guest calls one at a time, seen from one guest slot: calls
of `sendGuestCallInternal`, and handles from `AcquireGuestSlot` on which it sends any
number of times before it releases them. The request of a handle is written straight
into the request area, and its response is read there too, so the slot stays parked
at `guestBusy` while the handle is held; a claim that the process makes for another
call meanwhile reads that state and goes elsewhere. A handle that was released, or
that a send has forfeited, refuses every further use before it touches the slot; it
is not kept.
-/

namespace ShmIpc.Slots

open Library

/-- The arguments of `GuestSlot.SendWithTimeout`. -/
structure HandleSend where
  size : Int
  msgType : MsgType
  deriving DecidableEq

structure HandleReply where
  respSize : Int
  msgType : MsgType
  deriving DecidableEq

inductive HandleError
  | sizeExceeds (absSize : Int) (bufferSize : Nat)
  | timeout
  | reclaimed
  | seqMismatch (expected got : Nat)
  deriving DecidableEq

def HandleError.message : HandleError → String
  | .sizeExceeds absSize bufferSize =>
    s!"request size {absSize} exceeds buffer size {bufferSize}"
  | .timeout => "timeout waiting for host"
  | .reclaimed => "slot reclaimed while consuming response"
  | .seqMismatch expected got => s!"msgSeq mismatch: expected {expected}, got {got}"

inductive HandlePc
  | checkSize
  | storeReqSize
  | storeMsgType
  | storeMsgSeq
  | storeNextSeq (currentSeq : Nat)
  | raiseActiveWait (currentSeq : Nat)
  | storeReqReady (currentSeq : Nat)
  | waiting (currentSeq : Nat)
  | bumpGen (currentSeq : Nat)
  | consume (currentSeq : Nat)
  | storeLease (currentSeq : Nat)
  | dropActiveWait (currentSeq : Nat) (outcome : WaitOutcome)
  | checkSeq (currentSeq : Nat)
  | loadRespSize
  | loadRespType (respSize : Int)
  deriving DecidableEq

/-- A send ends with the handle still held, or forfeits it. -/
inductive HandleProgress
  | running (pc : HandlePc)
  | replied (reply : HandleReply)
  | failed (error : HandleError)
  | forfeited (error : HandleError)
  deriving DecidableEq

/-- The size that the check compares: the least `int32` is its own negation. -/
def HandleSend.absSize (send : HandleSend) : Int :=
  if send.size < 0 then negInt32 send.size else send.size

/-- One atomic step of `GuestSlot.SendWithTimeout`. The consuming swap is made on the
fast path too; only the generation and the lease are left alone there. The type of the
response is handed to the caller as it is: `systemError` is no error here. -/
def handleStep (config : GuestConfig) (now : Nat) (s : Slot) (send : HandleSend) :
    HandlePc → Slot × HandleProgress
  | .checkSize =>
    if s.reqBuffer.length < send.absSize then
      (s, .failed (.sizeExceeds send.absSize s.reqBuffer.length))
    else (s, .running .storeReqSize)
  | .storeReqSize => ({ s with reqSize := send.size }, .running .storeMsgType)
  | .storeMsgType => ({ s with msgType := send.msgType }, .running .storeMsgSeq)
  | .storeMsgSeq => ({ s with msgSeq := s.nextSeq }, .running (.storeNextSeq s.nextSeq))
  | .storeNextSeq currentSeq =>
    ({ s with nextSeq := (s.nextSeq + config.layout.msgSeqStride) % seqPeriod },
      .running (.raiseActiveWait currentSeq))
  | .raiseActiveWait currentSeq =>
    ({ s with activeWait := true }, .running (.storeReqReady currentSeq))
  | .storeReqReady currentSeq => ({ s with state := .reqReady }, .running (.waiting currentSeq))
  | .waiting currentSeq =>
    if s.state = .respReady then
      (s, .running (if config.fastConsume then .consume currentSeq else .bumpGen currentSeq))
    else (s, .running (.waiting currentSeq))
  | .bumpGen currentSeq => (s.bumpGen, .running (.consume currentSeq))
  | .consume currentSeq =>
    if s.state = .respReady then
      ({ s with state := .guestBusy }, .running (if config.fastConsume then
        .dropActiveWait currentSeq .consumed else .storeLease currentSeq))
    else (s, .running (.dropActiveWait currentSeq .lost))
  | .storeLease currentSeq =>
    ({ s with lease := now }, .running (.dropActiveWait currentSeq .consumed))
  | .dropActiveWait currentSeq outcome =>
    ({ s with activeWait := false },
      match outcome with
      | .consumed => .running (.checkSeq currentSeq)
      | .lost => .forfeited .reclaimed
      | .timedOut => .forfeited .timeout)
  | .checkSeq currentSeq =>
    if s.msgSeq = currentSeq then (s, .running .loadRespSize)
    else (s, .failed (.seqMismatch currentSeq s.msgSeq))
  | .loadRespSize => (s, .running (.loadRespType s.respSize))
  | .loadRespType respSize => (s, .replied ⟨respSize, s.msgType⟩)

/-- Where the process stands with a slot. A claim is made for a call or, without one,
for a handle; a held handle remembers its latest send if that has succeeded. -/
inductive CallerPc
  | idle
  | claiming (purpose : Option GuestCall) (pc : ClaimPc)
  | calling (call : GuestCall) (pc : GuestSendPc)
  | held (last : Option (HandleSend × HandleReply))
  | sending (send : HandleSend) (pc : HandlePc)
  | releasing
  deriving DecidableEq

inductive CallerMove
  | call (call : GuestCall)
  | acquire
  | write (reqBuffer : List UInt8)
  | send (send : HandleSend)
  | release
  | advance (now : Nat)
  | expire
  deriving DecidableEq

def CallerPc.afterClaim (purpose : Option GuestCall) : Progress ClaimPc → CallerPc
  | .running pc => .claiming purpose pc
  | .returned false => .idle
  | .returned true =>
    match purpose with
    | some call => .calling call .checkSize
    | none => .held none

def CallerPc.afterCall (call : GuestCall) : GuestProgress → CallerPc
  | .running pc => .calling call pc
  | .returned _ => .idle

def CallerPc.afterSend (send : HandleSend) : HandleProgress → CallerPc
  | .running pc => .sending send pc
  | .replied reply => .held (some (send, reply))
  | .failed _ => .held none
  | .forfeited _ => .idle

/-- One atomic step of the process on the slot, if the move is possible where it
stands. A wait gives up only after it has seen another state than the awaited one. -/
def callerStep (config : GuestConfig) (s : Slot) :
    CallerPc → CallerMove → Option (Slot × CallerPc)
  | .idle, .call call =>
    if call.data.length < 2 ^ 31 then some (s, .claiming (some call) (.loadState s.gen))
    else some (s, .idle)
  | .idle, .acquire => some (s, .claiming none (.loadState s.gen))
  | .claiming purpose pc, .advance now =>
    let r := Go.tryClaimGuestSlot.step now s pc
    some (r.1, .afterClaim purpose r.2)
  | .calling call pc, .advance now =>
    let r := guestSendStep config now s call pc
    some (r.1, .afterCall call r.2)
  | .calling call (.waiting currentSeq), .expire =>
    if s.state = .respReady then none
    else some (s, .calling call (.dropActiveWait currentSeq .timedOut))
  | .held last, .write reqBuffer =>
    if reqBuffer.length = s.reqBuffer.length then
      some ({ s with reqBuffer := reqBuffer }, .held last)
    else none
  | .held _, .send send => some (s, .sending send .checkSize)
  | .held _, .release => some (s, .releasing)
  | .sending send pc, .advance now =>
    let r := handleStep config now s send pc
    some (r.1, .afterSend send r.2)
  | .sending send (.waiting currentSeq), .expire =>
    if s.state = .respReady then none
    else some (s, .sending send (.dropActiveWait currentSeq .timedOut))
  | .releasing, .advance _ =>
    some (if s.state = .guestBusy then { s with state := .free } else s, .idle)
  | _, _ => none

variable {Pid : Type}

structure CallerSystem (Pid : Type) where
  slot : Slot
  caller : CallerPc
  processor : Pid → ProcessorPc

inductive CallerAction (Pid : Type)
  | caller (move : CallerMove)
  | processor (p : Pid) (move : ProcessorMove)

structure CallerSystem.Initial (s : CallerSystem Pid) : Prop where
  free : s.slot.state = .free
  idle : s.caller = .idle
  scanning : ∀ p, s.processor p = .scanning

def HandleSend.request (send : HandleSend) (s : Slot) : Request :=
  ⟨send.msgType, send.size, sized s.reqBuffer send.size⟩

def GuestTraffic.post (h : GuestTraffic Unit Pid) (r : Request) : GuestTraffic Unit Pid :=
  { h with
    requests := h.requests ++ [r]
    mine := fun _ => h.requests.length }

variable [DecidableEq Pid]

def CallerSystem.step (config : GuestConfig) (s : CallerSystem Pid) :
    CallerAction Pid → Option (CallerSystem Pid)
  | .caller move => (callerStep config s.slot s.caller move).map fun r =>
    { s with slot := r.1, caller := r.2 }
  | .processor p move => (processorStep config s.slot (s.processor p) move).map fun r =>
    { s with slot := r.1, processor := Function.update s.processor p r.2 }

/-- The guest slots of a process, each with its traffic. -/
abbrev GuestSlots (ι Pid : Type) := ι → CallerSystem Pid × GuestTraffic Unit Pid

def CallerPc.atRest : CallerPc → Bool
  | .idle | .held _ => true
  | _ => false

/-- The process makes its calls one at a time, and so does each processor serve. -/
def OneAtATime {ι : Type} (s : GuestSlots ι Pid) : ι × CallerAction Pid → Prop
  | (i, .caller _) => ∀ j, j ≠ i → (s j).1.caller.atRest = true
  | (i, .processor p _) => ∀ j, j ≠ i → (s j).1.processor p = .scanning

/-- The reply to a send on a handle, with the response area as it stands: what a run
of the handler for exactly the request of this send answered. -/
def OwnReply (h : GuestTraffic Unit Pid) (s : Slot) (send : HandleSend) (reply : HandleReply) :
    Prop :=
  ∃ r, h.requests[h.mine ()]? = some r ∧ r.msgType = send.msgType ∧ r.size = send.size ∧
    reply.msgType = send.msgType ∧ ∃ run ∈ h.runs, run.request = h.mine () ∧
      run.msgType = send.msgType ∧ (∀ view ∈ run.views, view = r.data) ∧
      run.answer = some (reply.respSize, s.respBuffer)

/-- The host has refused the request of this send, because its size is beyond the request
area, or the answer to it, because a run of the handler for exactly this request returned a
size beyond the response area. -/
def OwnRefusal (h : GuestTraffic Unit Pid) (s : Slot) (send : HandleSend) (reply : HandleReply) :
    Prop :=
  reply.msgType = .systemError ∧ reply.respSize = 0 ∧
    ∃ r, h.requests[h.mine ()]? = some r ∧ r.msgType = send.msgType ∧ r.size = send.size ∧
      (s.reqBuffer.length < send.size.natAbs ∨ ∃ run ∈ h.runs, run.request = h.mine () ∧
        run.msgType = send.msgType ∧ (∀ view ∈ run.views, view = r.data) ∧
        ∃ respSize respBuffer, run.answer = some (respSize, respBuffer) ∧
          respBuffer.length < respSize.natAbs)

end ShmIpc.Slots
