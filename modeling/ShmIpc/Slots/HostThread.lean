import ShmIpc.Slots.Claim

/-!
A host thread on a host slot. Outside a call it owns nothing or holds the slot
it has claimed; inside one it performs the stores of a send in the order of the
source, waits, takes the response and gives the slot back. The four ways to send
share that order and differ in whether the slot is kept afterwards.

A thread that looks for another slot while it holds this one counts as two.
-/

namespace ShmIpc.Slots

inductive SendKind
  | acquired
  | async
  | held
  | zeroCopy
  deriving DecidableEq

def SendKind.keepsSlot : SendKind → Bool
  | .acquired | .async => false
  | .held | .zeroCopy => true

structure HostCall where
  kind : SendKind
  size : Int
  msgType : MsgType
  deriving DecidableEq

inductive CallResult
  | published
  | success
  | response (bytes : List UInt8)
  | failed (error : Error)
  deriving DecidableEq

/-- The next action of a send. The sequence number it wrote travels along for the
check of the answer; `WaitForSlot` has none and computes it then. -/
inductive SendPc
  | checkSize
  | storeReqSize
  | storeMsgType
  | storeMsgSeq
  | storeNextSeq (currentSeq : Nat)
  | storeLease (currentSeq : Nat)
  | raiseActiveWait (currentSeq : Nat)
  | storeReqReady (currentSeq : Nat)
  | reraiseActiveWait
  | waiting (currentSeq : Option Nat)
  | park (currentSeq : Option Nat)
  | dropActiveWait (currentSeq : Option Nat) (ready : Bool)
  | checkSeq (currentSeq : Option Nat)
  | checkType
  | loadRespSize
  | copyResponse (respSize : Int)
  | storeFree (result : CallResult)
  deriving DecidableEq

inductive SendProgress
  | running (pc : SendPc)
  | inFlight
  | keeps (result : CallResult)
  | leaves (result : CallResult)
  deriving DecidableEq

def expectedSeq (layout : Layout) (s : Slot) (currentSeq : Option Nat) : Nat :=
  currentSeq.getD ((s.nextSeq + (seqPeriod - layout.msgSeqStride % seqPeriod)) % seqPeriod)

/-- One atomic step of `SendAcquired`, `SendAcquiredAsync` with `WaitForSlot`,
`SendHeld` or `ZeroCopySlot::Send`. -/
def sendStep (layout : Layout) (now : Nat) (s : Slot) (call : HostCall) :
    SendPc → Slot × SendProgress
  | .checkSize =>
    if s.reqBuffer.length < call.size.natAbs then
      if call.kind.keepsSlot then (s, .keeps (.failed .bufferTooSmall))
      else (s, .running (.storeFree (.failed .bufferTooSmall)))
    else (s, .running .storeReqSize)
  | .storeReqSize => ({ s with reqSize := call.size }, .running .storeMsgType)
  | .storeMsgType => ({ s with msgType := call.msgType }, .running .storeMsgSeq)
  | .storeMsgSeq => ({ s with msgSeq := s.nextSeq }, .running (.storeNextSeq s.nextSeq))
  | .storeNextSeq currentSeq =>
    ({ s with nextSeq := (s.nextSeq + layout.msgSeqStride) % seqPeriod },
      .running (if call.kind = .held then .storeLease currentSeq
        else .raiseActiveWait currentSeq))
  | .storeLease currentSeq => ({ s with lease := now }, .running (.raiseActiveWait currentSeq))
  | .raiseActiveWait currentSeq =>
    ({ s with activeWait := true }, .running (.storeReqReady currentSeq))
  | .storeReqReady currentSeq =>
    ({ s with state := .reqReady },
      if call.kind = .async then .inFlight else .running (.waiting (some currentSeq)))
  | .reraiseActiveWait => ({ s with activeWait := true }, .running (.waiting none))
  | .waiting currentSeq =>
    if s.state = .respReady then (s, .running (.park currentSeq))
    else (s, .running (.waiting currentSeq))
  | .park currentSeq => ({ s with state := .busy }, .running (.dropActiveWait currentSeq true))
  | .dropActiveWait currentSeq ready =>
    ({ s with activeWait := false },
      if ready then .running (.checkSeq currentSeq) else .leaves (.failed .timeout))
  | .checkSeq currentSeq =>
    if s.msgSeq = expectedSeq layout s currentSeq then (s, .running .checkType)
    else (s, .running (.storeFree (.failed .protocolViolation)))
  | .checkType =>
    if s.msgType = .systemError then (s, .running (.storeFree (.failed .internalError)))
    else if call.kind = .zeroCopy then (s, .keeps .success)
    else (s, .running .loadRespSize)
  | .loadRespSize => (s, .running (.copyResponse s.respSize))
  | .copyResponse respSize =>
    if call.kind = .held then (s, .keeps (.response (copyOut s.respBuffer respSize)))
    else (s, .running (.storeFree (.response (copyOut s.respBuffer respSize))))
  | .storeFree result => ({ s with state := .free }, .leaves result)

inductive HostPc
  | idle
  | claiming (pc : ClaimPc)
  | reclaiming (pc : ReclaimPc)
  | owned
  | sending (call : HostCall) (pc : SendPc)
  | inFlight (call : HostCall)
  deriving DecidableEq

inductive HostMove
  | tryClaim
  | tryReclaim (maxLeaseAge : Nat)
  | fillRequest (bytes : List UInt8)
  | send (call : HostCall)
  | waitForSlot
  | release
  | advance (now : Nat)
  | expire
  deriving DecidableEq

def HostPc.afterClaim : Progress ClaimPc → HostPc
  | .running pc => .claiming pc
  | .returned true => .owned
  | .returned false => .idle

def HostPc.afterReclaim : Progress ReclaimPc → HostPc
  | .running pc => .reclaiming pc
  | .returned _ => .idle

def HostPc.afterSend (call : HostCall) : SendProgress → HostPc
  | .running pc => .sending call pc
  | .inFlight => .inFlight call
  | .keeps _ => .owned
  | .leaves _ => .idle

/-- One atomic step of a host thread, if the move is possible where it stands. -/
def hostStep (layout : Layout) (s : Slot) : HostPc → HostMove → Option (Slot × HostPc)
  | .idle, .tryClaim => some (s, .claiming (.loadState s.gen))
  | .idle, .tryReclaim maxLeaseAge => some (s, .reclaiming (.loadState maxLeaseAge s.gen))
  | .claiming pc, .advance now =>
    let r := Cpp.tryClaimSlot.step now s pc
    some (r.1, .afterClaim r.2)
  | .reclaiming pc, .advance now =>
    let r := reclaimStep now s pc
    some (r.1, .afterReclaim r.2)
  | .owned, .fillRequest bytes =>
    if bytes.length = s.reqBuffer.length then some ({ s with reqBuffer := bytes }, .owned)
    else none
  | .owned, .send call => some (s, .sending call .checkSize)
  | .owned, .release => some ({ s with state := .free }, .idle)
  | .sending call pc, .advance now =>
    let r := sendStep layout now s call pc
    some (r.1, .afterSend call r.2)
  | .sending call (.waiting currentSeq), .expire =>
    if s.state = .respReady then none
    else some (s, .sending call (.dropActiveWait currentSeq false))
  | .inFlight call, .waitForSlot => some (s, .sending call .reraiseActiveWait)
  | _, _ => none

end ShmIpc.Slots
