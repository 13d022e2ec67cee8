import ShmIpc.Library.Blocks
import ShmIpc.Library.Transition
import ShmIpc.Stream.GuestReassembler

/-!
`StreamSender::Send` on the host, the slots it uses, and the Go reassembler that
the guest workers run. A slot is seen as an exchange: a published request is run
through the handler by its worker, at any moment, and the host sees the reply
type or gives up. The sender is one thread and every other part of the system
may move between two of its steps.
-/

namespace ShmIpc.Stream
open Library

/-- A host slot as the sender and the slot's worker use it. A slot is `idle`
when `tryClaimSlot` takes it. -/
inductive SlotUse
  | idle
  | published (msgType : MsgType) (req : List UInt8)
  | answered (reply : MsgType)
  | abandoned (msgType : MsgType) (req : List UInt8)

inductive SendResult
  | success
  | failure (error : Error)
  deriving DecidableEq, Repr

/-- Where `Send` is. -/
inductive SendPhase
  | enter
  | start
  | startWait (slot : Nat)
  | abortWait (slot : Nat)
  | fill
  | drain
  | failing (error : Error)
  | returned (result : SendResult)
  deriving DecidableEq, Repr

/-- One call of `Send`: the sender's configuration, its arguments and the host
it runs on. -/
structure SendCall where
  numSlots : Nat
  maxReqSize : Nat
  maxInFlight : Nat
  baseSlot : Int
  data : List UInt8
  streamId : Nat
  appMsgType : Nat

namespace SendCall

def maxPayload (P : SendCall) : Nat := P.maxReqSize - chunkHeaderSize

def totalChunks (P : SendCall) : Nat :=
  if P.data.length = 0 then 0 else blockCount P.data.length P.maxPayload % 2 ^ 32

def startMsg (P : SendCall) : List UInt8 :=
  putStreamHeader ⟨P.streamId, P.data.length, P.totalChunks, P.appMsgType⟩

def currentChunkSize (P : SendCall) (remaining : Nat) : Nat :=
  if remaining > P.maxPayload then P.maxPayload else remaining

/-- The chunk sent when `remaining` bytes are left. -/
def chunkMsg (P : SendCall) (chunkIndex remaining : Nat) : List UInt8 :=
  let sent := P.data.length - remaining
  putChunkHeader ⟨P.streamId, chunkIndex, P.currentChunkSize remaining, sent % 2 ^ 32, 0⟩ ++
    (P.data.drop sent).take (P.currentChunkSize remaining)

end SendCall

structure SendState where
  phase : SendPhase
  remaining : Nat
  chunkIndex : Nat
  rr : Nat
  pendingSlots : List Nat
  slots : Nat → SlotUse
  guest : Go.Reassembler
  delivered : List Delivery

inductive SendAction
  | acquire (slot : Nat)
  | acquireTimeout
  | proceed
  | timeout
  | work (slot : Nat) (env : Go.Surroundings)
  | other (env : Go.Surroundings) (msgType : MsgType) (req : List UInt8)

namespace SendState

def setSlot (s : SendState) (slot : Nat) (u : SlotUse) : SendState :=
  { s with slots := Function.update s.slots slot u }

/-- The pool hands out any claimable slot; a fixed range is used in rotation. -/
def acquirable (P : SendCall) (s : SendState) (slot : Nat) : Bool :=
  slot < P.numSlots &&
    (P.baseSlot < 0 || (slot : Int) = P.baseSlot + (s.rr % P.maxInFlight : Nat)) &&
    match s.slots slot with
    | .idle | .abandoned _ _ => true
    | _ => false

def advance (P : SendCall) (s : SendState) : SendState :=
  { s with rr := if P.baseSlot < 0 then s.rr else (s.rr + 1) % 2 ^ 32 }

def loopTest (s : SendState) : SendState :=
  if s.remaining > 0 ∨ s.pendingSlots ≠ [] then { s with phase := .fill }
  else { s with phase := .returned .success }

def canFill (P : SendCall) (s : SendState) : Bool :=
  s.remaining > 0 && s.pendingSlots.length < P.maxInFlight

/-- A wait that gives up leaves the request with the worker. -/
def abandon (s : SendState) (slot : Nat) : SendState :=
  match s.slots slot with
  | .published m req => s.setSlot slot (.abandoned m req)
  | .answered _ => s.setSlot slot .idle
  | _ => s

/-- `SendAcquiredAsync` of the next chunk on a slot just acquired. -/
def sendChunk (P : SendCall) (s : SendState) (slot : Nat) : SendState :=
  let size := P.currentChunkSize s.remaining
  if chunkHeaderSize + size > P.maxReqSize then
    { s.setSlot slot .idle with phase := .failing .bufferTooSmall }
  else
    { s.setSlot slot (.published .streamChunk (P.chunkMsg s.chunkIndex s.remaining)) with
      pendingSlots := s.pendingSlots ++ [slot]
      remaining := s.remaining - size
      chunkIndex := (s.chunkIndex + 1) % 2 ^ 32 }

/-- A request that was given up is dropped with its slot; what becomes of its worker is
in `LateSend`. -/
def acquire (P : SendCall) (s : SendState) (slot : Nat) : Option SendState :=
  if !s.acquirable P slot then none
  else
    match s.phase with
    | .start =>
      let s := s.advance P
      if P.maxReqSize ≤ chunkHeaderSize then
        some { s.setSlot slot (.published .systemError []) with phase := .abortWait slot }
      else
        some { s.setSlot slot (.published .streamStart P.startMsg) with
          phase := .startWait slot }
    | .fill => if s.canFill P then some ((s.advance P).sendChunk P slot) else none
    | _ => none

/-- `AcquireSpecificSlot` gives up; `AcquireSlot` does not while the host runs. -/
def acquireTimeout (P : SendCall) (s : SendState) : Option SendState :=
  if P.baseSlot < 0 then none
  else
    match s.phase with
    | .start => some { s with phase := .returned (.failure .resourceExhausted) }
    | .fill => if s.canFill P then some { s with phase := .drain } else none
    | _ => none

def proceed (P : SendCall) (s : SendState) : Option SendState :=
  match s.phase with
  | .enter =>
    if P.data.length > Cpp.kMaxStreamSize then
      some { s with phase := .returned (.failure .invalidArgs) }
    else some { s with phase := .start }
  | .start => none
  | .startWait slot =>
    match s.slots slot with
    | .answered reply =>
      let s := s.setSlot slot .idle
      if reply = .systemError then
        some { s with phase := .returned (.failure .internalError) }
      else some s.loopTest
    | _ => none
  | .abortWait slot =>
    match s.slots slot with
    | .answered _ =>
      some { s.setSlot slot .idle with phase := .returned (.failure .bufferTooSmall) }
    | _ => none
  | .fill => if s.canFill P then none else some { s with phase := .drain }
  | .drain =>
    match s.pendingSlots with
    | [] => some s.loopTest
    | slot :: rest =>
      match s.slots slot with
      | .answered reply =>
        let s := { s.setSlot slot .idle with pendingSlots := rest }
        if reply = .systemError then some { s with phase := .failing .internalError }
        else some s.loopTest
      | _ => none
  | .failing error =>
    match s.pendingSlots with
    | [] => some { s with phase := .returned (.failure error) }
    | slot :: rest =>
      match s.slots slot with
      | .answered _ => some { s.setSlot slot .idle with pendingSlots := rest }
      | _ => none
  | .returned _ => none

def timeout (s : SendState) : Option SendState :=
  match s.phase with
  | .startWait slot =>
    some { s.abandon slot with phase := .returned (.failure .timeout) }
  | .abortWait slot =>
    some { s.abandon slot with phase := .returned (.failure .bufferTooSmall) }
  | .drain =>
    match s.pendingSlots with
    | [] => none
    | slot :: rest =>
      some { s.abandon slot with pendingSlots := rest, phase := .failing .timeout }
  | .failing _ =>
    match s.pendingSlots with
    | [] => none
    | slot :: rest => some { s.abandon slot with pendingSlots := rest }
  | _ => none

/-- The handler runs on a message. With no fallback handler a message that is
not a stream message is answered `NORMAL`. -/
def handle (s : SendState) (env : Go.Surroundings) (m : MsgType) (req : List UInt8) :
    SendState × MsgType :=
  let (guest, answer) := s.guest.handler env m req
  ({ s with
      guest := guest
      delivered := s.delivered ++ (answer.bind Answer.delivered).toList },
    (answer.map Answer.reply).getD .normal)

/-- The worker of a slot runs the request it finds there. The reply to an
abandoned request goes nowhere. -/
def work (s : SendState) (slot : Nat) (env : Go.Surroundings) : Option SendState :=
  match s.slots slot with
  | .published m req =>
    let (s, reply) := s.handle env m req
    some (s.setSlot slot (.answered reply))
  | .abandoned m req => some ((s.handle env m req).1.setSlot slot .idle)
  | _ => none

/-- A message of the stream with this id. -/
def addressedTo (id : Nat) (m : MsgType) (req : List UInt8) : Bool :=
  (m = .streamStart && (parseStreamHeader req).streamId = id) ||
    (m = .streamChunk && (parseChunkHeader req).streamId = id)

/-- Traffic of other streams. It does not use this stream's id, and neither its
prune nor its eviction takes this stream. -/
def other (P : SendCall) (s : SendState) (env : Go.Surroundings) (m : MsgType)
    (req : List UInt8) : Option SendState :=
  let s' := (s.handle env m req).1
  if addressedTo P.streamId m req then none
  else if (s.guest.streams.lookup P.streamId).isSome &&
      !(s'.guest.streams.lookup P.streamId).isSome then none
  else some s'

def step (P : SendCall) (s : SendState) : SendAction → Option SendState
  | .acquire slot => s.acquire P slot
  | .acquireTimeout => s.acquireTimeout P
  | .proceed => s.proceed P
  | .timeout => s.timeout
  | .work slot env => s.work slot env
  | .other env m req => s.other P env m req

/-- The state in which `Send` is called: the thread has no exchange running and
the guest is in a state it can reach, with no stream of this id in flight. -/
structure Initial (P : SendCall) (s : SendState) : Prop where
  phase : s.phase = .enter
  remaining : s.remaining = P.data.length
  chunkIndex : s.chunkIndex = 0
  rr : s.rr = 0
  pendingSlots : s.pendingSlots = []
  slots : ∀ slot, s.slots slot = .idle
  guest : ∃ timeout events, s.guest = ((Go.Reassembler.new timeout).run events).1
  unused : s.guest.streams.lookup P.streamId = none
  delivered : s.delivered = []

/-- What a slot that has been acquired is used for, by where `Send` is. -/
inductive Acquires (P : SendCall) (s : SendState) (slot : Nat) : SendPhase → SendState → Prop
  | abort (hsmall : P.maxReqSize ≤ chunkHeaderSize) :
      Acquires P s slot .start
        { (s.advance P).setSlot slot (.published .systemError []) with phase := .abortWait slot }
  | start (hroom : chunkHeaderSize < P.maxReqSize) :
      Acquires P s slot .start
        { (s.advance P).setSlot slot (.published .streamStart P.startMsg) with
          phase := .startWait slot }
  | chunk (hfill : s.canFill P = true) :
      Acquires P s slot .fill ((s.advance P).sendChunk P slot)

/-- The steps of `Send` without an acquisition, by where it is. -/
inductive Proceeds (P : SendCall) (s : SendState) : SendPhase → SendState → Prop
  | tooLarge (hlarge : P.data.length > Cpp.kMaxStreamSize) :
      Proceeds P s .enter { s with phase := .returned (.failure .invalidArgs) }
  | enter (hsize : ¬ P.data.length > Cpp.kMaxStreamSize) :
      Proceeds P s .enter { s with phase := .start }
  | startRejected (slot : Nat) (hans : s.slots slot = .answered .systemError) :
      Proceeds P s (.startWait slot)
        { s.setSlot slot .idle with phase := .returned (.failure .internalError) }
  | started (slot : Nat) (reply : MsgType) (hans : s.slots slot = .answered reply)
      (hreply : reply ≠ .systemError) :
      Proceeds P s (.startWait slot) (s.setSlot slot .idle).loopTest
  | aborted (slot : Nat) (reply : MsgType) (hans : s.slots slot = .answered reply) :
      Proceeds P s (.abortWait slot)
        { s.setSlot slot .idle with phase := .returned (.failure .bufferTooSmall) }
  | filled (hfull : ¬ s.canFill P = true) : Proceeds P s .fill { s with phase := .drain }
  | loop (hempty : s.pendingSlots = []) : Proceeds P s .drain s.loopTest
  | rejected (slot : Nat) (rest : List Nat) (hpending : s.pendingSlots = slot :: rest)
      (hans : s.slots slot = .answered .systemError) :
      Proceeds P s .drain
        { s.setSlot slot .idle with pendingSlots := rest, phase := .failing .internalError }
  | acknowledged (slot : Nat) (rest : List Nat) (reply : MsgType)
      (hpending : s.pendingSlots = slot :: rest) (hans : s.slots slot = .answered reply)
      (hreply : reply ≠ .systemError) :
      Proceeds P s .drain ({ s.setSlot slot .idle with pendingSlots := rest } : SendState).loopTest
  | failed (error : Error) (hempty : s.pendingSlots = []) :
      Proceeds P s (.failing error) { s with phase := .returned (.failure error) }
  | drained (error : Error) (slot : Nat) (rest : List Nat) (reply : MsgType)
      (hpending : s.pendingSlots = slot :: rest) (hans : s.slots slot = .answered reply) :
      Proceeds P s (.failing error) { s.setSlot slot .idle with pendingSlots := rest }

/-- The waits that give up. -/
inductive Expires (s : SendState) : SendPhase → SendState → Prop
  | start (slot : Nat) :
      Expires s (.startWait slot) { s.abandon slot with phase := .returned (.failure .timeout) }
  | abort (slot : Nat) :
      Expires s (.abortWait slot)
        { s.abandon slot with phase := .returned (.failure .bufferTooSmall) }
  | drain (slot : Nat) (rest : List Nat) (hpending : s.pendingSlots = slot :: rest) :
      Expires s .drain { s.abandon slot with pendingSlots := rest, phase := .failing .timeout }
  | failing (error : Error) (slot : Nat) (rest : List Nat)
      (hpending : s.pendingSlots = slot :: rest) :
      Expires s (.failing error) { s.abandon slot with pendingSlots := rest }

theorem acquires_of_eq {P : SendCall} {s s' : SendState} {slot : Nat}
    (hs' : s.acquire P slot = some s') :
    s.acquirable P slot = true ∧ Acquires P s slot s.phase s' := by
  unfold acquire at hs'
  split at hs'
  · cases hs'
  case isFalse hslot =>
    rw [Bool.not_eq_true, Bool.not_eq_false'] at hslot
    refine ⟨hslot, ?_⟩
    split at hs'
    case h_1 hphase =>
      rw [hphase]
      split at hs'
      case isTrue hsmall =>
        cases hs'
        exact .abort hsmall
      case isFalse hroom =>
        cases hs'
        exact .start (Nat.not_le.mp hroom)
    case h_2 hphase =>
      rw [hphase]
      split at hs'
      case isTrue hfill =>
        cases hs'
        exact .chunk hfill
      · cases hs'
    · cases hs'

theorem phase_abandon (s : SendState) (slot : Nat) : (s.abandon slot).phase = s.phase := by
  unfold abandon
  split <;> rfl

theorem proceeds_of_eq {P : SendCall} {s s' : SendState} (hs' : s.proceed P = some s') :
    Proceeds P s s.phase s' := by
  unfold proceed at hs'
  cases hphase : s.phase with
  | enter =>
    simp only [hphase] at hs'
    split at hs'
    case isTrue hlarge =>
      cases hs'
      exact .tooLarge hlarge
    case isFalse hsize =>
      cases hs'
      exact .enter hsize
  | startWait slot =>
    simp only [hphase] at hs'
    split at hs'
    case h_1 reply hans =>
      split at hs'
      case isTrue hreply =>
        cases hs'
        exact .startRejected slot (hreply ▸ hans)
      case isFalse hreply =>
        cases hs'
        exact .started slot reply hans hreply
    · cases hs'
  | abortWait slot =>
    simp only [hphase] at hs'
    split at hs'
    case h_1 reply hans =>
      cases hs'
      exact .aborted slot reply hans
    · cases hs'
  | fill =>
    simp only [hphase] at hs'
    split at hs'
    · cases hs'
    case isFalse hfull =>
      cases hs'
      exact .filled hfull
  | drain =>
    simp only [hphase] at hs'
    split at hs'
    case h_1 hempty =>
      cases hs'
      exact .loop hempty
    case h_2 slot rest hpending =>
      split at hs'
      case h_1 reply hans =>
        split at hs'
        case isTrue hreply =>
          cases hs'
          exact .rejected slot rest hpending (hreply ▸ hans)
        case isFalse hreply =>
          cases hs'
          exact .acknowledged slot rest reply hpending hans hreply
      · cases hs'
  | failing error =>
    simp only [hphase] at hs'
    split at hs'
    case h_1 hempty =>
      cases hs'
      exact .failed error hempty
    case h_2 slot rest hpending =>
      split at hs'
      case h_1 reply hans =>
        cases hs'
        exact .drained error slot rest reply hpending hans
      · cases hs'
  | start | returned => simp only [hphase, reduceCtorEq] at hs'

theorem expires_of_eq {s s' : SendState} (hs' : s.timeout = some s') :
    Expires s s.phase s' := by
  unfold timeout at hs'
  cases hphase : s.phase with
  | startWait slot =>
    simp only [hphase, Option.some.injEq] at hs'
    subst hs'
    exact .start slot
  | abortWait slot =>
    simp only [hphase, Option.some.injEq] at hs'
    subst hs'
    exact .abort slot
  | drain =>
    simp only [hphase] at hs'
    split at hs'
    · cases hs'
    case h_2 slot rest hpending =>
      cases hs'
      exact .drain slot rest hpending
  | failing error =>
    simp only [hphase] at hs'
    split at hs'
    · cases hs'
    case h_2 slot rest hpending =>
      cases hs'
      exact .failing error slot rest hpending
  | enter | start | fill | returned => simp only [hphase, reduceCtorEq] at hs'

end SendState

end ShmIpc.Stream
