import ShmIpc.Library.Transition
import ShmIpc.Stream.Delivery
import ShmIpc.Stream.GuestReassembler
import ShmIpc.Stream.Sender

/-!
`StreamSender.Send` of the Go guest, the guest slots it uses, and the host that answers
them: `ProcessGuestCalls` with a handler that passes stream messages to the C++
`StreamReassembler`. With more than one chunk in flight every chunk has a goroutine of
its own, which the calling goroutine starts after it took a token from `sem` and a slot.
A slot is seen as an exchange that does not time out.

The list of exchanges is an observer's record of what `Handle` answered to the messages
of this stream. No step reads it.
-/

namespace ShmIpc.Stream

namespace Cpp

/-- The handler given to `Start`: it copies the message type, calls `Handle` and returns
the response size. -/
def guestCallHandler (r : StreamReassembler) (env : Surroundings) (req : List UInt8)
    (msgType : MsgType) : StreamReassembler × Int :=
  let mutableType := msgType
  let (r, _) := r.handle env mutableType req
  (r, 0)

/-- One request in `ProcessGuestCalls`: what the handler leaves behind, and the message
type and size of the published response. -/
def processGuestCall {σ : Type} (maxReqSize maxRespSize : Nat)
    (handler : σ → List UInt8 → MsgType → σ × Int) (s : σ) (req : List UInt8)
    (msgType : MsgType) : σ × MsgType × Int :=
  if req.length > maxReqSize then (s, .systemError, 0)
  else
    let (s, respSize) := handler s req msgType
    if respSize.natAbs > maxRespSize then (s, .systemError, 0) else (s, msgType, respSize)

end Cpp

namespace Go

inductive SendError
  | tooLarge
  | noFreeSlot
  | tooSmallForStreamHeader
  | tooSmallForChunkHeader
  | startRejected
  | bufferOverflow
  | chunkRejected (idx : Nat)
  deriving DecidableEq, Repr

/-- One call of `Send`: the depth asked of `NewStreamSender`, the tag, the arguments, and
the buffers of the guest slots. -/
structure GuestSend where
  bufLen : Nat
  maxRespSize : Nat
  maxInFlight : Int
  data : List UInt8
  streamID : UInt64
  appMsgType : UInt32

namespace GuestSend

/-- The depth `NewStreamSender` settles on. -/
def inFlight (P : GuestSend) : Nat := if P.maxInFlight ≤ 0 then 1 else P.maxInFlight.toNat

def maxPayload (P : GuestSend) : Nat := P.bufLen - chunkHeaderSize

def totalChunks (P : GuestSend) : Nat :=
  if P.data.length > 0 then (P.data.length + P.maxPayload - 1) / P.maxPayload else 0

def startMsg (P : GuestSend) : List UInt8 :=
  putStreamHeader ⟨P.streamID.toNat, P.data.length, P.totalChunks % 2 ^ 32, P.appMsgType.toNat⟩

def blockEnd (P : GuestSend) (offset : Nat) : Nat :=
  if offset + P.maxPayload > P.data.length then P.data.length else offset + P.maxPayload

def payload (P : GuestSend) (offset : Nat) : List UInt8 :=
  (P.data.drop offset).take (P.blockEnd offset - offset)

/-- The message `sendChunk` writes; `none` is its overflow error. -/
def sendChunk (P : GuestSend) (idx offset : Nat) : Option (List UInt8) :=
  let payload := P.payload offset
  if P.bufLen < chunkHeaderSize + payload.length then none
  else some (putChunkHeader ⟨P.streamID.toNat, idx, payload.length % 2 ^ 32, offset % 2 ^ 32, 0⟩
    ++ payload)

end GuestSend

/-- A guest slot as this call uses it. -/
inductive GuestSlotUse
  | free
  | held
  | published (msgType : MsgType) (req : List UInt8)
  | answered (msgType : MsgType)
  deriving DecidableEq

/-- Where the goroutine that called `Send` is. -/
inductive MainPc
  | enter
  | acquireStart
  | startWait (slot : Nat)
  | inline (idx offset : Nat)
  | inlineWait (slot idx offset : Nat)
  | top (idx offset : Nat)
  | token (idx offset : Nat)
  | acquire (idx offset : Nat)
  | join (error : Option SendError)
  | returned (error : Option SendError)
  deriving DecidableEq

/-- Where the goroutine of a chunk is. Its deferred calls run one after the other: the
slot is released, the token goes back, and the wait group is told. -/
inductive ChunkPc
  | unborn
  | launched (slot offset : Nat)
  | waiting (slot : Nat)
  | sent (slot : Nat)
  | released
  | tokenBack
  | finished
  deriving DecidableEq

structure GuestSendState where
  main : MainPc
  sem : Nat
  wg : Nat
  errChan : Option SendError
  chunks : Nat → ChunkPc
  slots : Nat → GuestSlotUse
  host : Cpp.StreamReassembler
  exchanges : List Exchange
  delivered : List Delivery

inductive GuestSendAction
  /-- The next step of the calling goroutine. -/
  | main
  /-- `acquireSlot` gets this slot. -/
  | acquire (slot : Nat)
  /-- `acquireSlot` gives up at its deadline. -/
  | acquireTimeout
  /-- `acquireSlot` finds an error in the channel. -/
  | abort
  /-- The next step of a chunk's goroutine. -/
  | chunk (idx : Nat)
  | work (slot : Nat) (env : Cpp.Surroundings)
  | other (event : Cpp.Event)

namespace GuestSendState

def setSlot (s : GuestSendState) (slot : Nat) (u : GuestSlotUse) : GuestSendState :=
  { s with slots := Function.update s.slots slot u }

def setChunk (s : GuestSendState) (idx : Nat) (pc : ChunkPc) : GuestSendState :=
  { s with chunks := Function.update s.chunks idx pc }

/-- The send that drops its error when the channel is full. -/
def offerError (s : GuestSendState) (e : SendError) : GuestSendState :=
  { s with errChan := some (s.errChan.getD e) }

/-- The error a reply means, if it is a rejection. -/
def rejection (reply : MsgType) (e : SendError) : Option SendError :=
  if reply = .systemError then some e else none

/-- A chunk is published in a slot just acquired, or found too long for it. -/
def publishChunk (P : GuestSend) (s : GuestSendState) (slot idx offset : Nat) :
    Option GuestSendState :=
  (P.sendChunk idx offset).map fun msg => s.setSlot slot (.published .streamChunk msg)

def mainStep (P : GuestSend) (s : GuestSendState) : Option GuestSendState :=
  match s.main with
  | .enter =>
    if P.data.length > MaxStreamSize then some { s with main := .returned (some .tooLarge) }
    else some { s with main := .acquireStart }
  | .acquireStart => none
  | .startWait slot =>
    match s.slots slot with
    | .answered reply =>
      let s := s.setSlot slot .free
      match rejection reply .startRejected with
      | some e => some { s with main := .returned (some e) }
      | none =>
        if P.data.length = 0 then some { s with main := .returned none }
        else if P.inFlight = 1 then some { s with main := .inline 0 0 }
        else some { s with main := .top 0 0 }
    | _ => none
  | .inline _ offset =>
    if offset < P.data.length then none else some { s with main := .returned none }
  | .inlineWait slot idx offset =>
    match s.slots slot with
    | .answered reply =>
      let s := s.setSlot slot .free
      match rejection reply (.chunkRejected idx) with
      | some e => some { s with main := .returned (some e) }
      | none => some { s with main := .inline ((idx + 1) % 2 ^ 32) (P.blockEnd offset) }
    | _ => none
  | .top idx offset =>
    if offset < P.data.length then
      match s.errChan with
      | some e => some { s with errChan := none, main := .join (some e) }
      | none => some { s with main := .token idx offset }
    else some { s with main := .join none }
  | .token idx offset =>
    if s.sem < P.inFlight then
      some { s with sem := s.sem + 1, wg := s.wg + 1, main := .acquire idx offset }
    else none
  | .acquire _ _ => none
  | .join error =>
    if s.wg = 0 then some { s with main := .returned (error.or s.errChan) } else none
  | .returned _ => none

def acquire (P : GuestSend) (s : GuestSendState) (slot : Nat) : Option GuestSendState :=
  if s.slots slot ≠ .free then none
  else
    match s.main with
    | .acquireStart =>
      if P.bufLen < streamHeaderSize then
        some { s with main := .returned (some .tooSmallForStreamHeader) }
      else if P.bufLen ≤ chunkHeaderSize then
        some { s with main := .returned (some .tooSmallForChunkHeader) }
      else some { s.setSlot slot (.published .streamStart P.startMsg) with
        main := .startWait slot }
    | .inline idx offset =>
      if offset < P.data.length then
        match s.publishChunk P slot idx offset with
        | some s => some { s with main := .inlineWait slot idx offset }
        | none => some { s with main := .returned (some .bufferOverflow) }
      else none
    | .acquire idx offset =>
      some { (s.setSlot slot .held).setChunk idx (.launched slot offset) with
        main := .top ((idx + 1) % 2 ^ 32) (P.blockEnd offset) }
    | _ => none

/-- The calling goroutine gives back its token and joins the chunks under way. -/
def leave (s : GuestSendState) (e : SendError) : GuestSendState :=
  { s with sem := s.sem - 1, wg := s.wg - 1, main := .join (some e) }

def acquireTimeout (P : GuestSend) (s : GuestSendState) : Option GuestSendState :=
  match s.main with
  | .acquireStart => some { s with main := .returned (some .noFreeSlot) }
  | .inline _ offset =>
    if offset < P.data.length then some { s with main := .returned (some .noFreeSlot) } else none
  | .acquire _ _ => some (s.leave .noFreeSlot)
  | _ => none

def abort (s : GuestSendState) : Option GuestSendState :=
  match s.main, s.errChan with
  | .acquire _ _, some e => some { s.leave e with errChan := none }
  | _, _ => none

def chunkStep (P : GuestSend) (s : GuestSendState) (idx : Nat) : Option GuestSendState :=
  match s.chunks idx with
  | .unborn => none
  | .launched slot offset =>
    match s.publishChunk P slot idx offset with
    | some s => some (s.setChunk idx (.waiting slot))
    | none => some ((s.offerError .bufferOverflow).setChunk idx (.sent slot))
  | .waiting slot =>
    match s.slots slot with
    | .answered reply =>
      let s := (s.setSlot slot .held).setChunk idx (.sent slot)
      match rejection reply (.chunkRejected idx) with
      | some e => some (s.offerError e)
      | none => some s
    | _ => none
  | .sent slot => some ((s.setSlot slot .free).setChunk idx .released)
  | .released => some { s.setChunk idx .tokenBack with sem := s.sem - 1 }
  | .tokenBack => some { s.setChunk idx .finished with wg := s.wg - 1 }
  | .finished => none

/-- The host processes the request in a slot. -/
def work (P : GuestSend) (s : GuestSendState) (slot : Nat) (env : Cpp.Surroundings) :
    Option GuestSendState :=
  match s.slots slot with
  | .published m req =>
    let answer := (s.host.handle env m req).2
    let (host, reply, _) := Cpp.processGuestCall P.bufLen P.maxRespSize
      (fun r req msgType => Cpp.guestCallHandler r env req msgType) s.host req m
    let s := { s.setSlot slot (.answered reply) with host := host }
    if req.length > P.bufLen then some s
    else some { s with
      exchanges := s.exchanges ++ [⟨m, req, answer⟩]
      delivered := s.delivered ++ (answer.bind Answer.delivered).toList }
  | _ => none

/-- Other calls into the host's reassembler. They do not use this stream's id. -/
def other (P : GuestSend) (s : GuestSendState) (event : Cpp.Event) : Option GuestSendState :=
  let (host, exchanges) := s.host.apply event
  if exchanges.any fun x => SendState.addressedTo P.streamID.toNat x.msgType x.req then none
  else some { s with
    host := host
    delivered := s.delivered ++ exchanges.filterMap Exchange.delivery }

def step (P : GuestSend) (s : GuestSendState) : GuestSendAction → Option GuestSendState
  | .main => s.mainStep P
  | .acquire slot => s.acquire P slot
  | .acquireTimeout => s.acquireTimeout P
  | .abort => s.abort
  | .chunk idx => s.chunkStep P idx
  | .work slot env => s.work P slot env
  | .other event => s.other P event

/-- The state in which `Send` is called, on a host in any state it can reach. -/
def start (cfg : Cpp.StreamReassemblerConfig) (events : List Cpp.Event) : GuestSendState where
  main := .enter
  sem := 0
  wg := 0
  errChan := none
  chunks := fun _ => .unborn
  slots := fun _ => .free
  host := ((Cpp.StreamReassembler.construct cfg).run events).1
  exchanges := []
  delivered := []

/-- The steps of the calling goroutine without an acquisition, by where it is. -/
inductive MainGoes (P : GuestSend) (s : GuestSendState) : MainPc → GuestSendState → Prop
  | tooLarge (hlarge : P.data.length > MaxStreamSize) :
      MainGoes P s .enter { s with main := .returned (some .tooLarge) }
  | enter (hsize : ¬ P.data.length > MaxStreamSize) :
      MainGoes P s .enter { s with main := .acquireStart }
  | startFailed (slot : Nat) (reply : MsgType) (e : SendError)
      (hans : s.slots slot = .answered reply) (he : rejection reply .startRejected = some e) :
      MainGoes P s (.startWait slot) { s.setSlot slot .free with main := .returned (some e) }
  | startOnly (slot : Nat) (reply : MsgType) (hans : s.slots slot = .answered reply)
      (he : rejection reply .startRejected = none) (hempty : P.data.length = 0) :
      MainGoes P s (.startWait slot) { s.setSlot slot .free with main := .returned none }
  | startInline (slot : Nat) (reply : MsgType) (hans : s.slots slot = .answered reply)
      (he : rejection reply .startRejected = none) (hdata : P.data.length ≠ 0)
      (hone : P.inFlight = 1) :
      MainGoes P s (.startWait slot) { s.setSlot slot .free with main := .inline 0 0 }
  | startPipelined (slot : Nat) (reply : MsgType) (hans : s.slots slot = .answered reply)
      (he : rejection reply .startRejected = none) (hdata : P.data.length ≠ 0)
      (hmany : P.inFlight ≠ 1) :
      MainGoes P s (.startWait slot) { s.setSlot slot .free with main := .top 0 0 }
  | inlineEnd (idx offset : Nat) (hend : ¬ offset < P.data.length) :
      MainGoes P s (.inline idx offset) { s with main := .returned none }
  | inlineFailed (slot idx offset : Nat) (reply : MsgType) (e : SendError)
      (hans : s.slots slot = .answered reply) (he : rejection reply (.chunkRejected idx) = some e) :
      MainGoes P s (.inlineWait slot idx offset)
        { s.setSlot slot .free with main := .returned (some e) }
  | inlineNext (slot idx offset : Nat) (reply : MsgType) (hans : s.slots slot = .answered reply)
      (he : rejection reply (.chunkRejected idx) = none) :
      MainGoes P s (.inlineWait slot idx offset)
        { s.setSlot slot .free with main := .inline ((idx + 1) % 2 ^ 32) (P.blockEnd offset) }
  | stop (idx offset : Nat) (e : SendError) (hmore : offset < P.data.length)
      (he : s.errChan = some e) :
      MainGoes P s (.top idx offset) { s with errChan := none, main := .join (some e) }
  | next (idx offset : Nat) (hmore : offset < P.data.length) (he : s.errChan = none) :
      MainGoes P s (.top idx offset) { s with main := .token idx offset }
  | last (idx offset : Nat) (hend : ¬ offset < P.data.length) :
      MainGoes P s (.top idx offset) { s with main := .join none }
  | token (idx offset : Nat) (hsem : s.sem < P.inFlight) :
      MainGoes P s (.token idx offset)
        { s with sem := s.sem + 1, wg := s.wg + 1, main := .acquire idx offset }
  | join (error : Option SendError) (hwg : s.wg = 0) :
      MainGoes P s (.join error) { s with main := .returned (error.or s.errChan) }

/-- What the calling goroutine does with a slot it has acquired. -/
inductive MainTakes (P : GuestSend) (s : GuestSendState) (slot : Nat) :
    MainPc → GuestSendState → Prop
  | noStreamHeader (hsmall : P.bufLen < streamHeaderSize) :
      MainTakes P s slot .acquireStart
        { s with main := .returned (some .tooSmallForStreamHeader) }
  | noChunkHeader (hroom : streamHeaderSize ≤ P.bufLen) (hsmall : P.bufLen ≤ chunkHeaderSize) :
      MainTakes P s slot .acquireStart
        { s with main := .returned (some .tooSmallForChunkHeader) }
  | start (hstream : streamHeaderSize ≤ P.bufLen) (hroom : chunkHeaderSize < P.bufLen) :
      MainTakes P s slot .acquireStart
        { s.setSlot slot (.published .streamStart P.startMsg) with main := .startWait slot }
  | inline (idx offset : Nat) (msg : List UInt8) (hmore : offset < P.data.length)
      (hmsg : P.sendChunk idx offset = some msg) :
      MainTakes P s slot (.inline idx offset)
        { s.setSlot slot (.published .streamChunk msg) with main := .inlineWait slot idx offset }
  | inlineTooLong (idx offset : Nat) (hmore : offset < P.data.length)
      (hmsg : P.sendChunk idx offset = none) :
      MainTakes P s slot (.inline idx offset) { s with main := .returned (some .bufferOverflow) }
  | launch (idx offset : Nat) :
      MainTakes P s slot (.acquire idx offset)
        { (s.setSlot slot .held).setChunk idx (.launched slot offset) with
          main := .top ((idx + 1) % 2 ^ 32) (P.blockEnd offset) }

/-- How the calling goroutine ends its search for a slot without one: at the deadline, or
because a chunk has reported an error. -/
inductive MainGivesUp (P : GuestSend) (s : GuestSendState) : MainPc → GuestSendState → Prop
  | start : MainGivesUp P s .acquireStart { s with main := .returned (some .noFreeSlot) }
  | inline (idx offset : Nat) (hmore : offset < P.data.length) :
      MainGivesUp P s (.inline idx offset) { s with main := .returned (some .noFreeSlot) }
  | leave (idx offset : Nat) (e : SendError) (errChan : Option SendError) :
      MainGivesUp P s (.acquire idx offset) { s.leave e with errChan := errChan }

/-- The steps of the goroutine of a chunk, by where it is. -/
inductive ChunkGoes (P : GuestSend) (s : GuestSendState) (idx : Nat) :
    ChunkPc → GuestSendState → Prop
  | publish (slot offset : Nat) (msg : List UInt8) (hmsg : P.sendChunk idx offset = some msg) :
      ChunkGoes P s idx (.launched slot offset)
        ((s.setSlot slot (.published .streamChunk msg)).setChunk idx (.waiting slot))
  | tooLong (slot offset : Nat) (hmsg : P.sendChunk idx offset = none) :
      ChunkGoes P s idx (.launched slot offset)
        ((s.offerError .bufferOverflow).setChunk idx (.sent slot))
  | rejected (slot : Nat) (reply : MsgType) (e : SendError)
      (hans : s.slots slot = .answered reply) (he : rejection reply (.chunkRejected idx) = some e) :
      ChunkGoes P s idx (.waiting slot)
        (((s.setSlot slot .held).setChunk idx (.sent slot)).offerError e)
  | accepted (slot : Nat) (reply : MsgType) (hans : s.slots slot = .answered reply)
      (he : rejection reply (.chunkRejected idx) = none) :
      ChunkGoes P s idx (.waiting slot) ((s.setSlot slot .held).setChunk idx (.sent slot))
  | release (slot : Nat) :
      ChunkGoes P s idx (.sent slot) ((s.setSlot slot .free).setChunk idx .released)
  | giveBack : ChunkGoes P s idx .released { s.setChunk idx .tokenBack with sem := s.sem - 1 }
  | done : ChunkGoes P s idx .tokenBack { s.setChunk idx .finished with wg := s.wg - 1 }

section Inversion

variable {P : GuestSend} {s s' : GuestSendState}

theorem mainGoes_of_step (hstep : s.mainStep P = some s') : MainGoes P s s.main s' := by
  unfold mainStep at hstep
  cases hmain : s.main with
  | enter =>
    simp only [hmain] at hstep
    split at hstep
    case isTrue hlarge =>
      cases hstep
      exact .tooLarge hlarge
    case isFalse hsize =>
      cases hstep
      exact .enter hsize
  | startWait slot =>
    simp only [hmain] at hstep
    split at hstep
    case h_1 reply hans =>
      split at hstep
      case h_1 e he =>
        cases hstep
        exact .startFailed slot reply e hans he
      case h_2 he =>
        split at hstep
        case isTrue hempty =>
          cases hstep
          exact .startOnly slot reply hans he hempty
        case isFalse hdata =>
          split at hstep
          case isTrue hone =>
            cases hstep
            exact .startInline slot reply hans he hdata hone
          case isFalse hmany =>
            cases hstep
            exact .startPipelined slot reply hans he hdata hmany
    · cases hstep
  | inline idx offset =>
    simp only [hmain] at hstep
    split at hstep
    · cases hstep
    case isFalse hend =>
      cases hstep
      exact .inlineEnd idx offset hend
  | inlineWait slot idx offset =>
    simp only [hmain] at hstep
    split at hstep
    case h_1 reply hans =>
      split at hstep
      case h_1 e he =>
        cases hstep
        exact .inlineFailed slot idx offset reply e hans he
      case h_2 he =>
        cases hstep
        exact .inlineNext slot idx offset reply hans he
    · cases hstep
  | top idx offset =>
    simp only [hmain] at hstep
    split at hstep
    case isTrue hmore =>
      split at hstep
      case h_1 e he =>
        cases hstep
        exact .stop idx offset e hmore he
      case h_2 he =>
        cases hstep
        exact .next idx offset hmore he
    case isFalse hend =>
      cases hstep
      exact .last idx offset hend
  | token idx offset =>
    simp only [hmain] at hstep
    split at hstep
    case isTrue hsem =>
      cases hstep
      exact .token idx offset hsem
    · cases hstep
  | join error =>
    simp only [hmain] at hstep
    split at hstep
    case isTrue hwg =>
      cases hstep
      exact .join error hwg
    · cases hstep
  | acquireStart | acquire | returned => simp only [hmain, reduceCtorEq] at hstep

theorem mainTakes_of_acquire {slot : Nat} (hstep : s.acquire P slot = some s') :
    s.slots slot = .free ∧ MainTakes P s slot s.main s' := by
  unfold acquire at hstep
  split at hstep
  · cases hstep
  case isFalse hfree =>
    refine ⟨not_not.mp hfree, ?_⟩
    cases hmain : s.main with
    | acquireStart =>
      simp only [hmain] at hstep
      split at hstep
      case isTrue hsmall =>
        cases hstep
        exact .noStreamHeader hsmall
      case isFalse hstream =>
        split at hstep
        case isTrue hsmall =>
          cases hstep
          exact .noChunkHeader (Nat.not_lt.mp hstream) hsmall
        case isFalse hroom =>
          cases hstep
          exact .start (Nat.not_lt.mp hstream) (Nat.not_le.mp hroom)
    | inline idx offset =>
      simp only [hmain, publishChunk] at hstep
      split at hstep
      case isTrue hmore =>
        cases hmsg : P.sendChunk idx offset with
        | some msg =>
          simp only [hmsg, Option.map_some, Option.some.injEq] at hstep
          subst hstep
          exact .inline idx offset msg hmore hmsg
        | none =>
          simp only [hmsg, Option.map_none, Option.some.injEq] at hstep
          subst hstep
          exact .inlineTooLong idx offset hmore hmsg
      · cases hstep
    | acquire idx offset =>
      simp only [hmain, Option.some.injEq] at hstep
      subst hstep
      exact .launch idx offset
    | enter | startWait | inlineWait | top | token | join | returned =>
      simp only [hmain, reduceCtorEq] at hstep

theorem givesUp_of_timeout (hstep : s.acquireTimeout P = some s') :
    MainGivesUp P s s.main s' := by
  unfold acquireTimeout at hstep
  cases hmain : s.main with
  | acquireStart =>
    simp only [hmain, Option.some.injEq] at hstep
    subst hstep
    exact .start
  | inline idx offset =>
    simp only [hmain] at hstep
    split at hstep
    case isTrue hmore =>
      cases hstep
      exact .inline idx offset hmore
    case isFalse => cases hstep
  | acquire idx offset =>
    simp only [hmain, Option.some.injEq] at hstep
    subst hstep
    exact .leave idx offset .noFreeSlot s.errChan
  | enter | startWait | inlineWait | top | token | join | returned =>
    simp only [hmain, reduceCtorEq] at hstep

theorem givesUp_of_abort (P : GuestSend) (hstep : s.abort = some s') :
    MainGivesUp P s s.main s' := by
  unfold abort at hstep
  split at hstep
  case h_1 idx offset e hmain _ =>
    cases hstep
    rw [hmain]
    exact .leave idx offset e none
  case h_2 => cases hstep

theorem chunkGoes_of_step {idx : Nat} (hstep : s.chunkStep P idx = some s') :
    ChunkGoes P s idx (s.chunks idx) s' := by
  unfold chunkStep at hstep
  cases hpc : s.chunks idx with
  | launched slot offset =>
    simp only [hpc, publishChunk] at hstep
    cases hmsg : P.sendChunk idx offset with
    | some msg =>
      simp only [hmsg, Option.map_some, Option.some.injEq] at hstep
      subst hstep
      exact .publish slot offset msg hmsg
    | none =>
      simp only [hmsg, Option.map_none, Option.some.injEq] at hstep
      subst hstep
      exact .tooLong slot offset hmsg
  | waiting slot =>
    simp only [hpc] at hstep
    split at hstep
    case h_1 reply hans =>
      split at hstep
      case h_1 e he =>
        cases hstep
        exact .rejected slot reply e hans he
      case h_2 he =>
        cases hstep
        exact .accepted slot reply hans he
    · cases hstep
  | sent slot =>
    simp only [hpc, Option.some.injEq] at hstep
    subst hstep
    exact .release slot
  | released =>
    simp only [hpc, Option.some.injEq] at hstep
    subst hstep
    exact .giveBack
  | tokenBack =>
    simp only [hpc, Option.some.injEq] at hstep
    subst hstep
    exact .done
  | unborn | finished => simp only [hpc, reduceCtorEq] at hstep

end Inversion

end GuestSendState

end Go

end ShmIpc.Stream
