import ShmIpc.Stream.HeaderWrites
import ShmIpc.Stream.InlineSend
import ShmIpc.Stream.SendWindow

/-!
One stream on the wire, whoever sends it. A stream is described once, by the messages it
consists of; `StreamSender::Send`, and the Go sender with one chunk in flight or with many,
put down these messages and no others.
-/

namespace ShmIpc.Stream
open Library

/-- A stream, and the capacity of the slots it goes through. -/
structure Outgoing where
  data : List UInt8
  streamID : UInt64
  appMsgType : UInt32
  capacity : Nat
  room : chunkHeaderSize < capacity

namespace Outgoing

def maxPayload (x : Outgoing) : Nat := x.capacity - chunkHeaderSize

def totalChunks (x : Outgoing) : Nat := blockCount x.data.length x.maxPayload

def payload (x : Outgoing) : Nat → List UInt8 := block x.data x.maxPayload

def start (x : Outgoing) : List UInt8 :=
  putStreamHeader ⟨x.streamID.toNat, x.data.length, x.totalChunks, x.appMsgType.toNat⟩

def header (x : Outgoing) (i : Nat) : ChunkHeader :=
  ⟨x.streamID.toNat, i, (x.payload i).length, i * x.maxPayload, 0⟩

def chunk (x : Outgoing) (i : Nat) : List UInt8 := putChunkHeader (x.header i) ++ x.payload i

def chunks (x : Outgoing) : List (MsgType × List UInt8) :=
  (List.range x.totalChunks).map fun i => (.streamChunk, x.chunk i)

def host (x : Outgoing) (numSlots : Nat) (inFlight base : Int) : AnyCall :=
  ⟨numSlots, x.capacity, inFlight, base, x.data, x.streamID.toNat, x.appMsgType.toNat⟩

def guest (x : Outgoing) (maxRespSize : Nat) (maxInFlight : Int) : Go.ChunkPhase :=
  ⟨⟨x.capacity, maxRespSize, maxInFlight, x.data, x.streamID, x.appMsgType⟩, x.room⟩

variable (x : Outgoing) {P : SendCall}

/-- A call of `Send` with the stream's arguments. -/
structure SentBy (P : SendCall) : Prop where
  maxReqSize : P.maxReqSize = x.capacity
  data : P.data = x.data
  streamId : P.streamId = x.streamID.toNat
  appMsgType : P.appMsgType = x.appMsgType.toNat

variable {x}

theorem SentBy.sized (h : x.SentBy P) (hsize : x.data.length ≤ 2 ^ 30) : P.Sized where
  room := h.maxReqSize ▸ x.room
  size := h.data ▸ hsize
  streamId := h.streamId ▸ x.streamID.toNat_lt
  appMsgType := h.appMsgType ▸ x.appMsgType.toNat_lt

theorem SentBy.maxPayload_eq (h : x.SentBy P) : P.maxPayload = x.maxPayload := by
  rw [SendCall.maxPayload, h.maxReqSize, maxPayload]

theorem SentBy.totalChunks_eq (h : x.SentBy P) (hsize : x.data.length ≤ 2 ^ 30) :
    P.totalChunks = x.totalChunks := by
  rw [(h.sized hsize).totalChunks_eq, h.maxPayload_eq, h.data, totalChunks]

theorem SentBy.startMsg_eq (h : x.SentBy P) (hsize : x.data.length ≤ 2 ^ 30) :
    P.startMsg = x.start := by
  rw [SendCall.startMsg, h.totalChunks_eq hsize, h.streamId, h.data, h.appMsgType, start]

theorem SentBy.chunk_eq (h : x.SentBy P) (hsize : x.data.length ≤ 2 ^ 30) {i : Nat}
    (hi : i < x.totalChunks) : P.chunk i = x.chunk i := by
  rw [← h.totalChunks_eq hsize] at hi
  rw [(h.sized hsize).chunk_eq i hi, SendCall.blocks, h.data, h.maxPayload_eq, h.streamId]
  rfl

theorem SentBy.chunks_eq (h : x.SentBy P) (hsize : x.data.length ≤ 2 ^ 30) :
    ((List.range P.totalChunks).map fun i => (MsgType.streamChunk, P.chunk i)) = x.chunks := by
  rw [h.totalChunks_eq hsize, chunks]
  apply List.map_congr_left
  intro i hi
  rw [h.chunk_eq hsize (List.mem_range.mp hi)]

theorem sentBy_host (x : Outgoing) (numSlots : Nat) (inFlight base : Int) :
    x.SentBy (x.host numSlots inFlight base).call :=
  ⟨rfl, rfl, rfl, rfl⟩

theorem sentBy_guest (x : Outgoing) (maxRespSize : Nat) (maxInFlight : Int) :
    x.SentBy (x.guest maxRespSize maxInFlight).asHost :=
  ⟨rfl, rfl, rfl, rfl⟩

end Outgoing

/-! ### `StreamSender::Send` -/

/-- The wait that the thread is in does not come to an acknowledgement, or `Send` does not
get its first slot. -/
def SendState.exchangeFails (s : SendState) : SenderAction → Bool
  | .timeout => true
  | .proceed =>
    match s.waitsOn with
    | some slot => (s.slots slot).result = .rejected
    | none => false
  | .refused => s.phase = .start
  | _ => false

/-- `Send` is on its way to success. -/
def SendPhase.isSound : SendPhase → Bool
  | .enter | .start | .startWait _ | .fill | .drain | .returned .success => true
  | .abortWait _ | .failing _ | .returned (.failure _) => false

namespace SendLoop

section Sound

variable {C : AnyCall} {s s' : SendState} {log : SendLog}

theorem isSound_loopTest (s : SendState) : s.loopTest.phase.isSound = true := by
  rw [SendState.loopTest]
  split <;> rfl

theorem result_eq_rejected {u : SlotUse} {reply : MsgType} (hu : u = .answered reply)
    (hreply : reply = .systemError) : u.result = .rejected := by
  rw [hu, SlotUse.result, if_pos hreply]

theorem isSound_acquire (hC : C.call.Sized) (h : Inv C s log) (hsound : s.phase.isSound = true)
    {slot : Nat} (hs' : s.acquire C.call slot = some s') : s'.phase.isSound = true := by
  obtain ⟨hslot, huse⟩ := SendState.acquires_of_eq hs'
  have hbooks := h.books
  generalize hphase : s.phase = phase at hbooks huse
  cases huse with
  | abort hsmall => exact absurd hC.room (Nat.not_lt.mpr hsmall)
  | start hroom => rfl
  | chunk hfill =>
    rw [(Running.acquire hbooks slot hslot hfill).2.1]
    exact hsound

theorem isSound_proceed (hC : C.call.Sized) (hsound : s.phase.isSound = true)
    (hok : s.exchangeFails .proceed = false) (hs' : s.proceed C.call = some s') :
    s'.phase.isSound = true := by
  have hgo := SendState.proceeds_of_eq hs'
  simp only [SendState.exchangeFails, SendState.waitsOn] at hok
  generalize s.phase = phase at hsound hok hgo
  cases hgo with
  | tooLarge hlarge => exact absurd hlarge (Nat.not_lt.mpr hC.size)
  | enter | filled => rfl
  | startRejected slot hans =>
    simp only [result_eq_rejected hans rfl, decide_true, Bool.true_eq_false] at hok
  | started | loop | acknowledged => exact isSound_loopTest _
  | rejected slot rest hpending hans =>
    simp only [hpending, List.head?_cons, result_eq_rejected hans rfl, decide_true,
      Bool.true_eq_false] at hok
  | aborted | failed | drained => cases hsound

theorem isSound_step (hC : C.call.Sized) (h : Inv C s log) (hsound : s.phase.isSound = true)
    {a : SenderAction} (hok : s.exchangeFails a = false)
    (hs' : s.sendStep C.call a = some s') : s'.phase.isSound = true := by
  cases a with
  | acquire slot => exact isSound_acquire hC h hsound hs'
  | refused =>
    simp only [SendState.sendStep, SendState.refuse] at hs'
    split at hs'
    case h_1 hphase =>
      rw [SendState.exchangeFails, hphase] at hok
      cases hok
    · split at hs'
      · cases hs'
        rfl
      · cases hs'
    · cases hs'
  | proceed => exact isSound_proceed hC hsound hok hs'
  | timeout => cases hok
  | work slot env => exact phase_work hs' ▸ hsound
  | fault slot => exact phase_answer hs' ▸ hsound
  | stranger env m req => exact phase_stranger hs' ▸ hsound

theorem typed_of_sized (hC : C.call.Sized) : Typed C := ⟨hC.streamId, hC.appMsgType⟩

theorem sound_reachable (hC : C.call.Sized) {s₀ : SendState} (h₀ : SendState.Initial C.call s₀)
    (hr : Reachable C.call.logged (fun p a => p.1.exchangeFails a = false) (s₀, .new) (s, log)) :
    Inv C s log ∧ s.phase.isSound = true := by
  refine hr.recorded_invariant (fun s log => Inv C s log ∧ s.phase.isSound = true)
    ⟨inv_initial h₀, by rw [h₀.phase]; rfl⟩ ?_
  intro s log a s' h hok hs'
  exact ⟨h.1.step (typed_of_sized hC) hs', isSound_step hC h.1 h.2 hok hs'⟩

theorem published_of_returned (hC : C.call.Sized) {s₀ : SendState}
    (h₀ : SendState.Initial C.call s₀)
    (hr : Reachable C.call.logged (fun p a => p.1.exchangeFails a = false) (s₀, .new) (s, log))
    {result : SendResult} (hphase : s.phase = .returned result) :
    result = .success ∧ log.published = (.streamStart, C.call.startMsg) ::
      (List.range C.call.totalChunks).map fun i => (.streamChunk, C.call.chunk i) := by
  obtain ⟨h, hsound⟩ := sound_reachable hC h₀ hr
  have hbooks := h.books
  rw [hphase] at hbooks hsound
  cases result with
  | failure error => cases hsound
  | success =>
    obtain ⟨hrunning, -, hremaining⟩ := hbooks
    have hall : s.chunkIndex = C.call.totalChunks := by
      refine Nat.le_antisymm hrunning.queued.sent_le (Nat.le_of_not_lt fun hlt => ?_)
      rw [hC.lt_totalChunks] at hlt
      have hleft := hrunning.queued.remaining
      simp only [AnyCall.call] at hlt hleft
      omega
    rw [← hall]
    exact ⟨rfl, hrunning.account.published⟩

/-- `Send` has done nothing yet, or has refused the stream. -/
structure Refusing (s : SendState) (log : SendLog) : Prop where
  phase : s.phase = .enter ∨ s.phase = .returned (.failure .invalidArgs)
  published : log.published = []

theorem Refusing.step (h : Refusing s log) (hsize : Cpp.kMaxStreamSize < C.data.length)
    {a : SenderAction} (hs' : s.sendStep C.call a = some s') :
    Refusing s' (recordSend C.call s a s' log) := by
  have hphase := h.phase
  cases a with
  | acquire slot =>
    simp only [SendState.sendStep, SendState.acquire] at hs'
    split at hs'
    · cases hs'
    · cases hphase with
      | inl henter => simp only [henter, reduceCtorEq] at hs'
      | inr hreturned => simp only [hreturned, reduceCtorEq] at hs'
  | refused =>
    cases hphase with
    | inl henter =>
      simp only [SendState.sendStep, SendState.refuse, henter, reduceCtorEq] at hs'
    | inr hreturned =>
      simp only [SendState.sendStep, SendState.refuse, hreturned, reduceCtorEq] at hs'
  | proceed =>
    cases hphase with
    | inl henter =>
      simp only [SendState.sendStep, SendState.proceed, henter] at hs'
      rw [if_pos (show C.call.data.length > Cpp.kMaxStreamSize from hsize)] at hs'
      cases hs'
      refine ⟨Or.inr rfl, ?_⟩
      simp only [recordSend, SendState.waitsOn, henter]
      exact h.published
    | inr hreturned =>
      simp only [SendState.sendStep, SendState.proceed, hreturned, reduceCtorEq] at hs'
  | timeout =>
    cases hphase with
    | inl henter =>
      simp only [SendState.sendStep, SendState.timeout, henter, reduceCtorEq] at hs'
    | inr hreturned =>
      simp only [SendState.sendStep, SendState.timeout, hreturned, reduceCtorEq] at hs'
  | work slot env => exact ⟨phase_work hs' ▸ hphase, h.published⟩
  | fault slot => exact ⟨phase_answer hs' ▸ hphase, h.published⟩
  | stranger env m req => exact ⟨phase_stranger hs' ▸ hphase, h.published⟩

theorem published_tooLarge (hsize : Cpp.kMaxStreamSize < C.data.length) {s₀ : SendState}
    (h₀ : SendState.Initial C.call s₀)
    (hr : Reachable C.call.logged (fun _ _ => True) (s₀, .new) (s, log)) :
    log.published = [] := by
  have h : Refusing s log := hr.recorded_invariant Refusing ⟨Or.inl h₀.phase, rfl⟩
    fun _ _ _ _ h _ hs' => h.step hsize hs'
  exact h.published

end Sound

end SendLoop

/-! ### The Go sender -/

namespace Go

section Guest

variable {τ : Type} {P : ChunkPhase} {s : PipelineState τ} {log : PipelineLog τ}

theorem totalChunks_asHost (hP : P.asHost.Sized) : P.totalChunks = P.asHost.totalChunks := by
  refine eq_of_forall_lt_iff fun i => ?_
  rw [P.lt_totalChunks, hP.lt_totalChunks]
  rfl

theorem mem_published (hP : P.asHost.Sized) {bound : Nat} {read : Option (ChunkError τ)}
    (h : Region P s log 0 0 bound [] read) (hgone : ∀ w ∈ s.workers, w.pc.isLive = false)
    (hall : s.workers.length = P.asHost.totalChunks) (i : Nat) (msg : List UInt8) :
    (i, msg) ∈ log.published ↔ i < P.asHost.totalChunks ∧ P.asHost.chunk i = msg := by
  have hn := hP.totalChunks_le
  have hsent : ∀ hi : i < s.workers.length, (i, msg) ∈ log.published ↔ P.asHost.chunk i = msg := by
    intro hi
    have hworker := h.crew.each i _ (List.getElem?_eq_getElem hi)
    have hidx : i % 2 ^ 32 = i := Nat.mod_eq_of_lt (by omega)
    rw [hworker.published msg, hworker.idx, hworker.offset, hidx,
      GuestSend.sendChunk_eq hP i (hall ▸ hi), Option.some.injEq]
    refine and_iff_right ?_
    rw [WorkerPc.eq_gone (hgone _ (List.getElem_mem hi))]
    intro hsame
    cases hsame
  rw [← hall]
  constructor
  · intro hmem
    have hi := h.crew.published_lt _ hmem
    exact ⟨hi, (hsent hi).mp hmem⟩
  · rintro ⟨hi, hmsg⟩
    exact (hsent hi).mpr hmsg

theorem published_perm (hP : P.asHost.Sized)
    (hr : Reachable (P.logged τ) (fun _ a => a.succeeds = true) (.start, .new) (s, log))
    {error : Option (ChunkError τ)} (hmain : s.main = .returned error) :
    error = none ∧ (log.published.map fun y => (MsgType.streamChunk, y.2)).Perm
      ((List.range P.asHost.totalChunks).map fun i => (.streamChunk, P.asHost.chunk i)) := by
  have hunfailing := unfailing_reachable hr
  have hinv := hunfailing.inv
  rw [hmain] at hinv
  obtain ⟨⟨bound, hregion⟩, hgone, hall⟩ := hinv
  obtain ⟨hnil, -⟩ := hregion.read_eq_none hunfailing.errors
  have hlen := (hall hnil).1.trans (totalChunks_asHost hP)
  have hperm : log.published.Perm
      ((List.range P.asHost.totalChunks).map fun i => (i, P.asHost.chunk i)) := by
    rw [List.perm_ext_iff_of_nodup (List.Nodup.of_map Prod.fst hregion.crew.published)
      (List.nodup_range.map fun i j hij => congrArg Prod.fst hij)]
    rintro ⟨i, msg⟩
    rw [mem_published hP hregion hgone hlen, List.mem_map]
    constructor
    · rintro ⟨hi, hmsg⟩
      exact ⟨i, List.mem_range.mpr hi, by rw [hmsg]⟩
    · rintro ⟨j, hj, hpair⟩
      obtain ⟨rfl, hmsg⟩ := Prod.mk.inj hpair
      exact ⟨List.mem_range.mp hj, hmsg⟩
  have hmap := hperm.map fun y => (MsgType.streamChunk, y.2)
  rw [List.map_map] at hmap
  exact ⟨hnil, hmap⟩

end Guest

end Go

/-! ### The stream -/

/-- What the messages of a stream say, read back from their bytes. -/
structure Outgoing.WellFormed (x : Outgoing) : Prop where
  start : parseStreamHeader x.start =
    ⟨x.streamID.toNat, x.data.length, x.totalChunks, x.appMsgType.toNat⟩
  header : ∀ i, i < x.totalChunks → parseChunkHeader (x.chunk i) = x.header i
  payload : ∀ i, i < x.totalChunks → chunkPayload (x.chunk i) = x.payload i
  nonempty : ∀ i, i < x.totalChunks → x.payload i ≠ []
  fits : ∀ i, i < x.totalChunks → (x.payload i).length ≤ x.capacity - chunkHeaderSize
  offset : ∀ i, i < x.totalChunks →
    (parseChunkHeader (x.chunk i)).dstOffset = startOf x.payload i
  size : startOf x.payload x.totalChunks = x.data.length
  data : concat x.payload x.totalChunks = x.data

/-- Every sender sends the stream. Where a run is given, no exchange in it fails. -/
structure Outgoing.SentByAll (x : Outgoing) (τ : Type) : Prop where
  host : ∀ numSlots inFlight base s₀ s log result,
    SendState.Initial (x.host numSlots inFlight base).call s₀ →
    Reachable (x.host numSlots inFlight base).call.logged
      (fun p a => p.1.exchangeFails a = false) (s₀, .new) (s, log) →
    s.phase = .returned result →
    result = .success ∧ log.published = (.streamStart, x.start) :: x.chunks
  guestStart : ∀ maxRespSize maxInFlight (r : Go.Round τ), r.succeeds = true →
    Go.sendStart (x.guest maxRespSize maxInFlight).toGuestSend r =
      ([(.streamStart, x.start)], .ok x.maxPayload)
  guestInline : ∀ maxRespSize maxInFlight (rounds : Nat → Go.Round τ),
    (∀ n, (rounds n).succeeds = true) →
    Go.sendChunksInline (x.guest maxRespSize maxInFlight) rounds 0 0 0 = (x.chunks, none)
  guestPipelined : ∀ maxRespSize maxInFlight s log error,
    Reachable ((x.guest maxRespSize maxInFlight).logged τ) (fun _ a => a.succeeds = true)
      (.start, .new) (s, log) →
    s.main = .returned error →
    error = none ∧ (log.published.map fun y => (MsgType.streamChunk, y.2)).Perm x.chunks
  guestEnds : ∀ maxRespSize maxInFlight,
    Halts (checked (fun _ a => a.succeeds) ((x.guest maxRespSize maxInFlight).logged τ))
      (fun _ => true) (fun p => p.1.main.isReturned) (.start, .new)

/-- The buffer that a message is written into, by either sender. -/
structure Outgoing.WrittenByBoth (x : Outgoing) (P : SendCall) (Q : Go.GuestSend)
    (buf : List UInt8) : Prop where
  hostStart : (Cpp.writeStart P buf).take streamHeaderSize = x.start
  guestStart : (Go.writeStart Q buf).take streamHeaderSize = x.start
  hostChunk : ∀ i, i < x.totalChunks →
    (Cpp.writeChunk P i (x.data.length - i * x.maxPayload) buf).take (x.chunk i).length = x.chunk i
  guestChunk : ∀ i, i < x.totalChunks →
    (Go.writeChunk Q i (i * x.maxPayload) buf).take (x.chunk i).length = x.chunk i

namespace Outgoing

section Facts

variable {x : Outgoing}

theorem maxPayload_pos (x : Outgoing) : 0 < x.maxPayload := by
  have hroom := x.room
  rw [maxPayload]
  omega

theorem lt_totalChunks (x : Outgoing) (i : Nat) :
    i < x.totalChunks ↔ i * x.maxPayload < x.data.length :=
  lt_blockCount_iff _ _ _ x.maxPayload_pos

theorem wellFormed (hsize : x.data.length ≤ 2 ^ 30) : x.WellFormed := by
  have hsent := x.sentBy_host 1 1 (-1)
  have hP := hsent.sized hsize
  have htotal := hsent.totalChunks_eq hsize
  have hheader : ∀ i, i < x.totalChunks → parseChunkHeader (x.chunk i) = x.header i := by
    intro i hi
    have hparse := hP.parse_chunk i (htotal ▸ hi)
    rw [hsent.chunk_eq hsize hi] at hparse
    exact hparse
  refine ⟨?_, hheader, ?_, ?_, ?_, ?_, startOf_block_all _ _ x.maxPayload_pos,
    concat_block_all _ _ x.maxPayload_pos⟩
  · have hparse := hP.parse_startMsg
    rw [hsent.startMsg_eq hsize, htotal] at hparse
    exact hparse
  · intro i hi
    have hpayload := hP.payload_chunk i (htotal ▸ hi)
    rw [hsent.chunk_eq hsize hi] at hpayload
    exact hpayload
  · intro i hi
    have hlt := (x.lt_totalChunks i).mp hi
    have hpos := x.maxPayload_pos
    refine List.ne_nil_of_length_pos ?_
    rw [payload, length_block]
    omega
  · intro i hi
    rw [payload, length_block, maxPayload]
    exact Nat.min_le_left _ _
  · intro i hi
    have hlt := (x.lt_totalChunks i).mp hi
    rw [hheader i hi, payload, startOf_block, Nat.min_eq_left (Nat.le_of_lt hlt)]
    rfl

theorem take_length_of_take {buf msg : List UInt8} {n : Nat} (h : buf.take n = msg) :
    buf.take msg.length = msg := by
  have hle : msg.length ≤ n := by
    rw [← h, List.length_take]
    exact Nat.min_le_left _ _
  calc buf.take msg.length
      = (buf.take n).take msg.length := by rw [List.take_take, Nat.min_eq_left hle]
    _ = msg := by rw [h, List.take_length]

theorem writtenByBoth (hsize : x.data.length ≤ 2 ^ 30) (numSlots : Nat) (inFlight base : Int)
    (maxRespSize : Nat) (maxInFlight : Int) {buf : List UInt8} (hbuf : buf.length = x.capacity) :
    x.WrittenByBoth (x.host numSlots inFlight base).call
      (x.guest maxRespSize maxInFlight).toGuestSend buf := by
  have hhost := x.sentBy_host numSlots inFlight base
  have hguest := x.sentBy_guest maxRespSize maxInFlight
  have hroom : chunkHeaderSize ≤ buf.length := hbuf ▸ Nat.le_of_lt x.room
  refine ⟨?_, ?_, ?_, ?_⟩
  · rw [Cpp.take_writeStart, hhost.startMsg_eq hsize]
  · rw [Go.take_writeStart buf _ hroom, Go.GuestSend.startMsg_eq, hguest.startMsg_eq hsize]
  · intro i hi
    have htake := Cpp.take_writeChunk buf (x.host numSlots inFlight base).call i
      (x.data.length - i * x.maxPayload) (Nat.sub_le _ _)
    exact take_length_of_take (htake.trans (hhost.chunk_eq hsize hi))
  · intro i hi
    have hsent := Go.GuestSend.sendChunk_eq (hguest.sized hsize) i
      (hguest.totalChunks_eq hsize ▸ hi)
    rw [hguest.chunk_eq hsize hi] at hsent
    exact take_length_of_take (Go.take_writeChunk buf _ i _ hsent hroom)

theorem sentByAll (hsize : x.data.length ≤ 2 ^ 30) (τ : Type) : x.SentByAll τ where
  host := by
    intro numSlots inFlight base s₀ s log result h₀ hr hphase
    have hsent := x.sentBy_host numSlots inFlight base
    obtain ⟨hsuccess, hpublished⟩ :=
      SendLoop.published_of_returned (hsent.sized hsize) h₀ hr hphase
    rw [hsent.startMsg_eq hsize, hsent.chunks_eq hsize] at hpublished
    exact ⟨hsuccess, hpublished⟩
  guestStart := by
    intro maxRespSize maxInFlight r hr
    have hstart := Go.sendStart_succeeds (x.guest maxRespSize maxInFlight) hsize hr
    rw [Go.GuestSend.startMsg_eq, (x.sentBy_guest maxRespSize maxInFlight).startMsg_eq hsize]
      at hstart
    exact hstart
  guestInline := by
    intro maxRespSize maxInFlight rounds hrounds
    have hsent := x.sentBy_guest maxRespSize maxInFlight
    have hloop := Go.sendChunksInline_eq (x.guest maxRespSize maxInFlight) (hsent.sized hsize)
      rounds hrounds _ 0 (Nat.zero_add _)
    rw [← List.range_eq_range', hsent.chunks_eq hsize, Go.GuestSend.offsetOf, Nat.zero_mul,
      Nat.zero_min] at hloop
    exact hloop
  guestPipelined := by
    intro maxRespSize maxInFlight s log error hr hmain
    have hsent := x.sentBy_guest maxRespSize maxInFlight
    have hperm := Go.published_perm (hsent.sized hsize) hr hmain
    rw [hsent.chunks_eq hsize] at hperm
    exact hperm
  guestEnds maxRespSize maxInFlight := Go.pipelined_halts (x.guest maxRespSize maxInFlight)

end Facts

end Outgoing

/-- For every stream of at most 2^30 bytes, `StreamSender::Send` and the Go sender, one
chunk at a time or many, put the same messages on the wire, and these are well formed. Of a
larger stream nothing goes out. -/
theorem senders_agree (x : Outgoing) (τ : Type) :
    (x.data.length ≤ 2 ^ 30 → x.SentByAll τ ∧ x.WellFormed ∧
      ∀ numSlots inFlight base maxRespSize maxInFlight (buf : List UInt8),
        buf.length = x.capacity →
        x.WrittenByBoth (x.host numSlots inFlight base).call
          (x.guest maxRespSize maxInFlight).toGuestSend buf) ∧
    (2 ^ 30 < x.data.length →
      (∀ numSlots inFlight base s₀ s log,
        SendState.Initial (x.host numSlots inFlight base).call s₀ →
        Reachable (x.host numSlots inFlight base).call.logged (fun _ _ => True)
          (s₀, .new) (s, log) → log.published = []) ∧
      ∀ maxRespSize maxInFlight (r : Go.Round τ),
        Go.sendStart (x.guest maxRespSize maxInFlight).toGuestSend r =
          ([], .error .tooLarge)) := by
  constructor
  · intro hsize
    refine ⟨Outgoing.sentByAll hsize τ, Outgoing.wellFormed hsize, ?_⟩
    intro numSlots inFlight base maxRespSize maxInFlight buf hbuf
    exact Outgoing.writtenByBoth hsize numSlots inFlight base maxRespSize maxInFlight hbuf
  · intro hsize
    constructor
    · intro numSlots inFlight base s₀ s log h₀ hr
      have hlarge : Cpp.kMaxStreamSize < (x.host numSlots inFlight base).data.length := hsize
      exact SendLoop.published_tooLarge hlarge h₀ hr
    · intro maxRespSize maxInFlight r
      exact Go.sendStart_tooLarge (x.guest maxRespSize maxInFlight).toGuestSend hsize r

/-- Three bytes in chunks of two, and a run of `StreamSender::Send` that sends them. -/
theorem senders_agree_three :
    let x : Outgoing := ⟨[1, 2, 3], 7, 9, 26, by decide⟩
    let s₀ : SendState := ⟨.enter, 3, 0, 0, [], fun _ => .idle, .new 0, []⟩
    x.data.length ≤ 2 ^ 30 ∧ x.totalChunks = 2 ∧ x.WellFormed ∧
      ∃ p, Reachable (x.host 2 2 (-1)).call.logged (fun p a => p.1.exchangeFails a = false)
          (s₀, .new) p ∧
        p.1.phase = .returned .success ∧ p.2.published = (.streamStart, x.start) :: x.chunks := by
  let x : Outgoing := ⟨[1, 2, 3], 7, 9, 26, by decide⟩
  let s₀ : SendState := ⟨.enter, 3, 0, 0, [], fun _ => .idle, .new 0, []⟩
  have hsize : x.data.length ≤ 2 ^ 30 := by decide
  have h₀ : SendState.Initial (x.host 2 2 (-1)).call s₀ :=
    ⟨rfl, rfl, rfl, rfl, rfl, fun _ => rfl, ⟨0, [], rfl⟩, rfl, rfl⟩
  obtain ⟨hsent, hformed, -⟩ := (senders_agree x Nat).1 hsize
  obtain ⟨p, hr, hp⟩ := exists_reachable_of_exec (x.host 2 2 (-1)).call.logged
    (fun p a => p.1.exchangeFails a = false) (s₀, .new) (fun p a => !p.1.exchangeFails a)
    (fun p a h => Bool.not_eq_true' _ ▸ h)
    [.proceed, .acquire 0, .work 0 zeroGuest, .proceed, .acquire 0, .acquire 1,
      .work 1 zeroGuest, .work 0 zeroGuest, .proceed, .proceed, .proceed, .proceed]
    (fun p => p.1.phase = .returned .success) (by decide)
  rw [decide_eq_true_eq] at hp
  exact ⟨hsize, rfl, hformed, p, hr, hp, (hsent.host 2 2 (-1) s₀ p.1 p.2 _ h₀ hr hp).2⟩

end ShmIpc.Stream
