import ShmIpc.Slots.Claim

/-!
A guest goroutine on a guest slot, inside `sendGuestCallInternal`. The scan over
the slots is left out: seen from one slot a call tries to claim it, and goes
elsewhere if that fails. A call that found no slot may sweep for abandoned ones
when the guest's own reclaim is switched on.

With the fast path the response is read while the slot stays at `respReady`, under
the protection of the active-wait flag alone, and the flag is dropped before the
slot is released.
-/

namespace ShmIpc.Slots

/-- The settings both sides were started with: the shared layout, and whether the
guest and the host reclaim abandoned slots. -/
structure GuestConfig where
  layout : Layout
  guestReclaim : Bool
  hostReclaim : Bool

def GuestConfig.fastConsume (config : GuestConfig) : Bool :=
  config.layout.fastPathAllowed && !config.guestReclaim

structure GuestCall where
  data : List UInt8
  msgType : MsgType
  deriving DecidableEq

inductive GuestError
  | exceedsInt32 (size : Nat)
  | dataTooLarge
  | timeout
  | reclaimed
  | seqMismatch (expected got : Nat)
  | systemError
  | sizeExceeds (respSize : Int) (bufferSize : Nat)
  | invalidSize (respSize : Int)
  deriving DecidableEq

def GuestError.message : GuestError → String
  | .exceedsInt32 size => s!"data too large: {size} exceeds max int32"
  | .dataTooLarge => "data too large"
  | .timeout => "timeout waiting for host"
  | .reclaimed => "slot reclaimed while consuming response"
  | .seqMismatch expected got => s!"msgSeq mismatch: expected {expected}, got {got}"
  | .systemError => "system error: host rejected request (likely buffer overflow)"
  | .sizeExceeds respSize bufferSize =>
    s!"response size {respSize} exceeds buffer size {bufferSize}"
  | .invalidSize respSize => s!"invalid response size: {respSize}"

inductive GuestResult
  | response (bytes : List UInt8)
  | failed (error : GuestError)
  deriving DecidableEq

/-- Flatbuffer requests stand at the end of the request area, which a negative size
tells the other side. -/
def GuestCall.reqSize (call : GuestCall) : Int :=
  if call.msgType = .flatbuffer then -call.data.length else call.data.length

def GuestCall.place (call : GuestCall) (reqBuffer : List UInt8) : List UInt8 :=
  if call.msgType = .flatbuffer then
    reqBuffer.take (reqBuffer.length - call.data.length) ++ call.data
  else call.data ++ reqBuffer.drop call.data.length

/-- The response a guest call copies out, or its complaint about the size. -/
def readResponse (respBuffer : List UInt8) (respSize : Int) : GuestResult :=
  if 0 ≤ respSize then
    if respBuffer.length < respSize.natAbs then .failed (.sizeExceeds respSize respBuffer.length)
    else .response (respBuffer.take respSize.natAbs)
  else
    let rLen := negInt32 respSize
    if rLen < 0 then .failed (.invalidSize respSize)
    else if respBuffer.length < rLen.natAbs then .failed (.sizeExceeds rLen respBuffer.length)
    else .response (respBuffer.drop (respBuffer.length - rLen.natAbs))

theorem GuestCall.length_place (call : GuestCall) {reqBuffer : List UInt8}
    (h : call.data.length ≤ reqBuffer.length) : (call.place reqBuffer).length = reqBuffer.length := by
  unfold GuestCall.place
  split
  · simp only [List.length_append, List.length_take]
    omega
  · simp only [List.length_append, List.length_drop]
    omega

theorem GuestCall.sized_place (call : GuestCall) (reqBuffer : List UInt8)
    (h : call.data.length ≤ reqBuffer.length) :
    sized (call.place reqBuffer) call.reqSize = call.data := by
  unfold sized GuestCall.place GuestCall.reqSize
  split
  · split
    case isTrue hpos =>
      have hnil : call.data = [] := List.length_eq_zero_iff.mp (by omega)
      simp [hnil]
    case isFalse hneg =>
      have hlength : (reqBuffer.take (reqBuffer.length - call.data.length) ++ call.data).length =
          reqBuffer.length := by
        simp only [List.length_append, List.length_take]
        omega
      simp only [hlength, Int.natAbs_neg, Int.natAbs_natCast]
      rw [List.drop_append_of_le_length (by simp only [List.length_take]; omega)]
      simp
  · simp

theorem sized_of_readResponse {respBuffer : List UInt8} {respSize : Int} {bytes : List UInt8}
    (h : readResponse respBuffer respSize = .response bytes) : bytes = sized respBuffer respSize := by
  unfold readResponse at h
  unfold sized
  split at h
  case isTrue hpos =>
    split at h
    · cases h
    · cases h
      rw [if_pos hpos]
  case isFalse hneg =>
    rw [if_neg hneg]
    simp only at h
    split at h
    · cases h
    case isFalse hmin =>
      split at h
      · cases h
      case isFalse hfits =>
        cases h
        have hlen : (negInt32 respSize).natAbs = respSize.natAbs := by
          unfold negInt32 at hmin ⊢
          split
          · rfl
          · exact Int.natAbs_neg respSize
        rw [hlen] at hfits ⊢
        rw [List.take_of_length_le]
        simp only [List.length_drop]
        omega

/-- How the wait for a response ended, if not on the fast path. -/
inductive WaitOutcome
  | consumed
  | lost
  | timedOut
  deriving DecidableEq

/-- The next action of a guest call that has claimed the slot. `fast` says that the
response is consumed without a claim of its own. -/
inductive GuestSendPc
  | checkSize
  | refuse
  | copyRequest
  | storeReqSize
  | storeMsgType
  | storeMsgSeq
  | storeNextSeq (currentSeq : Nat)
  | raiseActiveWait (currentSeq : Nat)
  | storeReqReady (currentSeq : Nat)
  | waiting (currentSeq : Nat)
  | bumpGen (currentSeq : Nat)
  | consume (currentSeq : Nat)
  | storeLease (currentSeq : Nat)
  | dropActiveWait (currentSeq : Nat) (outcome : WaitOutcome)
  | checkSeq (fast : Bool) (currentSeq : Nat)
  | checkType (fast : Bool)
  | loadRespSize (fast : Bool)
  | copyResponse (fast : Bool) (respSize : Int)
  | clearActiveWait (result : GuestResult)
  | release (fast : Bool) (result : GuestResult)
  deriving DecidableEq

inductive GuestProgress
  | running (pc : GuestSendPc)
  | returned (result : GuestResult)
  deriving DecidableEq

/-- `releaseOwned`: on the fast path the flag goes down before the slot is freed. -/
def GuestSendPc.releaseOwned (fast : Bool) (result : GuestResult) : GuestSendPc :=
  if fast then .clearActiveWait result else .release false result

def ownedState (fast : Bool) : SlotState :=
  if fast then .respReady else .guestBusy

/-- One atomic step of `sendGuestCallInternal` after its claim. -/
def guestSendStep (config : GuestConfig) (now : Nat) (s : Slot) (call : GuestCall) :
    GuestSendPc → Slot × GuestProgress
  | .checkSize =>
    if s.reqBuffer.length < call.data.length then (s, .running .refuse)
    else (s, .running .copyRequest)
  | .refuse =>
    (if s.state = .guestBusy then { s with state := .free } else s,
      .returned (.failed .dataTooLarge))
  | .copyRequest => ({ s with reqBuffer := call.place s.reqBuffer }, .running .storeReqSize)
  | .storeReqSize => ({ s with reqSize := call.reqSize }, .running .storeMsgType)
  | .storeMsgType => ({ s with msgType := call.msgType }, .running .storeMsgSeq)
  | .storeMsgSeq => ({ s with msgSeq := s.nextSeq }, .running (.storeNextSeq s.nextSeq))
  | .storeNextSeq currentSeq =>
    ({ s with nextSeq := (s.nextSeq + config.layout.msgSeqStride) % seqPeriod },
      .running (.raiseActiveWait currentSeq))
  | .raiseActiveWait currentSeq =>
    ({ s with activeWait := true }, .running (.storeReqReady currentSeq))
  | .storeReqReady currentSeq => ({ s with state := .reqReady }, .running (.waiting currentSeq))
  | .waiting currentSeq =>
    if s.state = .respReady then
      (s, .running (if config.fastConsume then .checkSeq true currentSeq
        else .bumpGen currentSeq))
    else (s, .running (.waiting currentSeq))
  | .bumpGen currentSeq => (s.bumpGen, .running (.consume currentSeq))
  | .consume currentSeq =>
    if s.state = .respReady then
      ({ s with state := .guestBusy }, .running (.storeLease currentSeq))
    else (s, .running (.dropActiveWait currentSeq .lost))
  | .storeLease currentSeq =>
    ({ s with lease := now }, .running (.dropActiveWait currentSeq .consumed))
  | .dropActiveWait currentSeq outcome =>
    ({ s with activeWait := false },
      match outcome with
      | .consumed => .running (.checkSeq false currentSeq)
      | .lost => .returned (.failed .reclaimed)
      | .timedOut => .returned (.failed .timeout))
  | .checkSeq fast currentSeq =>
    if s.msgSeq = currentSeq then (s, .running (.checkType fast))
    else (s, .running (.releaseOwned fast (.failed (.seqMismatch currentSeq s.msgSeq))))
  | .checkType fast =>
    if s.msgType = .systemError then
      (s, .running (.releaseOwned fast (.failed .systemError)))
    else (s, .running (.loadRespSize fast))
  | .loadRespSize fast => (s, .running (.copyResponse fast s.respSize))
  | .copyResponse fast respSize =>
    (s, .running (.releaseOwned fast (readResponse s.respBuffer respSize)))
  | .clearActiveWait result => ({ s with activeWait := false }, .running (.release true result))
  | .release fast result =>
    (if s.state = ownedState fast then { s with state := .free } else s, .returned result)

inductive GuestPc
  | idle
  | claiming (call : GuestCall) (pc : ClaimPc)
  | reclaiming (pc : ReclaimPc)
  | sending (call : GuestCall) (pc : GuestSendPc)
  deriving DecidableEq

inductive GuestMove
  | call (call : GuestCall)
  | tryReclaim (maxLeaseAge : Nat)
  | advance (now : Nat)
  | expire
  deriving DecidableEq

def GuestPc.afterClaim (call : GuestCall) : Progress ClaimPc → GuestPc
  | .running pc => .claiming call pc
  | .returned true => .sending call .checkSize
  | .returned false => .idle

def GuestPc.afterReclaim : Progress ReclaimPc → GuestPc
  | .running pc => .reclaiming pc
  | .returned _ => .idle

def GuestPc.afterSend (call : GuestCall) : GuestProgress → GuestPc
  | .running pc => .sending call pc
  | .returned _ => .idle

/-- One atomic step of a goroutine, if the move is possible where it stands. -/
def guestStep (config : GuestConfig) (s : Slot) : GuestPc → GuestMove → Option (Slot × GuestPc)
  | .idle, .call call =>
    if call.data.length < 2 ^ 31 then some (s, .claiming call (.loadState s.gen))
    else some (s, .idle)
  | .idle, .tryReclaim maxLeaseAge => some (s, .reclaiming (.loadState maxLeaseAge s.gen))
  | .claiming call pc, .advance now =>
    let r := Go.tryClaimGuestSlot.step now s pc
    some (r.1, .afterClaim call r.2)
  | .reclaiming pc, .advance now =>
    let r := reclaimStep now s pc
    some (r.1, .afterReclaim r.2)
  | .sending call pc, .advance now =>
    let r := guestSendStep config now s call pc
    some (r.1, .afterSend call r.2)
  | .sending call (.waiting currentSeq), .expire =>
    if s.state = .respReady then none
    else some (s, .sending call (.dropActiveWait currentSeq .timedOut))
  | _, _ => none

end ShmIpc.Slots
