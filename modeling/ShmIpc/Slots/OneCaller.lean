import ShmIpc.Slots.GuestHandle
import ShmIpc.Slots.GuestResponse

/-!
A guest slot with one caller at a time. A slot can be claimed only when it is free or
when its last request has been answered, so no processor is left with an old request
when the next one is published: a processor that is still busy with a request whose
caller gave up keeps the slot from being taken. The request in the slot is therefore
the latest one until its answer is consumed, and a consumed answer answers it.
-/

namespace ShmIpc.Slots

open Library

variable {Pid : Type}

/-- The answer is a refusal of the latest request, or what a run of the handler for it
returned. -/
inductive Answered (h : GuestTraffic Unit Pid) (r : Request) (reqCapacity : Nat)
    (answer : Int × MsgType × List UInt8) : Prop
  | refused (hsize : answer.1 = 0) (htype : answer.2.1 = .systemError)
      (hrefused : Refused h r reqCapacity)
  | handled (run : GuestRun) (hran : Ran h r run answer.1 answer.2.2)
      (hreply : answer.2.1 = r.msgType)

def answeredRule : AnswerRule Unit Pid where
  accepts := Answered
  refusal _ _ _ _ := .refused rfl rfl
  handler _ _ _ run _ _ hran := .handled run hran rfl

/-- The caller's latest request is the latest one of the slot. -/
def Posted (h : GuestTraffic Unit Pid) (r : Request) : Prop :=
  h.requests[h.mine ()]? = some r ∧ h.mine () + 1 = h.requests.length

/-- The slot is in this state, and what stands in it answers the caller's request. -/
structure Reads (h : GuestTraffic Unit Pid) (s : Slot) (r : Request) (st : SlotState) : Prop where
  state : s.state = st
  posted : Posted h r
  answered : Answered h r s.reqBuffer.length (answerAfter s [])

def HandleSend.Sent (send : HandleSend) (r : Request) : Prop :=
  r.msgType = send.msgType ∧ r.size = send.size

/-- A published request on its way through the host. -/
def Slot.InTransit (s : Slot) : Prop := Phase.awaiting.Allows Go.tryClaimGuestSlot s.state

def CallKnows (h : GuestTraffic Unit Pid) (s : Slot) (call : GuestCall) : GuestSendPc → Prop
  | .checkSize | .refuse => s.state = .guestBusy
  | .copyRequest => s.state = .guestBusy ∧ call.data.length ≤ s.reqBuffer.length
  | .storeReqSize => s.state = .guestBusy ∧ sized s.reqBuffer call.reqSize = call.data
  | .storeMsgType => s.state = .guestBusy ∧ Stored s call
  | .storeMsgSeq | .storeNextSeq _ | .raiseActiveWait _ | .storeReqReady _ =>
    s.state = .guestBusy ∧ Stored s call ∧ s.msgType = call.msgType
  | .waiting _ => s.InTransit ∧ Posted h call.request
  | .bumpGen _ | .consume _ => s.state = .respReady ∧ Posted h call.request
  | .storeLease _ | .dropActiveWait _ .consumed => Reads h s call.request .guestBusy
  | .dropActiveWait _ .lost => False
  | .dropActiveWait _ .timedOut => True
  | .checkSeq fast _ | .checkType fast => Reads h s call.request (ownedState fast)
  | .loadRespSize fast => Reads h s call.request (ownedState fast) ∧ s.msgType ≠ .systemError
  | .copyResponse fast respSize => Reads h s call.request (ownedState fast) ∧
      s.msgType ≠ .systemError ∧ respSize = s.respSize
  | .clearActiveWait result => s.state = .respReady ∧
      ∀ bytes, result = .response bytes → OwnResponse h () call bytes
  | .release fast result => s.state = ownedState fast ∧
      ∀ bytes, result = .response bytes → OwnResponse h () call bytes

def HandleKnows (h : GuestTraffic Unit Pid) (s : Slot) (send : HandleSend) : HandlePc → Prop
  | .checkSize | .storeReqSize => s.state = .guestBusy
  | .storeMsgType => s.state = .guestBusy ∧ s.reqSize = send.size
  | .storeMsgSeq | .storeNextSeq _ | .raiseActiveWait _ | .storeReqReady _ =>
    s.state = .guestBusy ∧ s.reqSize = send.size ∧ s.msgType = send.msgType
  | .waiting _ => s.InTransit ∧ ∃ r, send.Sent r ∧ Posted h r
  | .bumpGen _ | .consume _ => s.state = .respReady ∧ ∃ r, send.Sent r ∧ Posted h r
  | .storeLease _ | .dropActiveWait _ .consumed | .checkSeq _ | .loadRespSize =>
    ∃ r, send.Sent r ∧ Reads h s r .guestBusy
  | .dropActiveWait _ .lost => False
  | .dropActiveWait _ .timedOut => True
  | .loadRespType respSize =>
    (∃ r, send.Sent r ∧ Reads h s r .guestBusy) ∧ respSize = s.respSize

def CallerKnows (h : GuestTraffic Unit Pid) (s : Slot) : CallerPc → Prop
  | .idle => True
  | .claiming _ pc => pc.Lawful Go.tryClaimGuestSlot ∧ (pc = .storeLease → s.state = .guestBusy)
  | .calling call pc => CallKnows h s call pc
  | .held last => s.state = .guestBusy ∧ ∀ send reply, last = some (send, reply) →
      OwnReply h s send reply ∨ OwnRefusal h s send reply
  | .sending send pc => HandleKnows h s send pc
  | .releasing => s.state = .guestBusy

/-- The processor has a request for which it has not called the handler to its end. -/
def ProcessorPc.unreturned : ProcessorPc → Bool
  | .storeLease | .loadReqSize | .loadMsgType _ | .handling _ _ => true
  | _ => false

/-- The runs belong to different requests, and none to one that still waits for its
handler. -/
structure RunsOnce (s : Slot) (processor : Pid → ProcessorPc) (h : GuestTraffic Unit Pid) :
    Prop where
  nodup : (h.runs.map GuestRun.request).Nodup
  below : ∀ run ∈ h.runs, run.request < h.requests.length
  untaken : s.state = .reqReady → ∀ run ∈ h.runs, run.request + 1 < h.requests.length
  unreturned : ∀ p, (processor p).unreturned = true →
    ∀ run ∈ h.runs, run.request + 1 < h.requests.length

structure OneCaller (s : CallerSystem Pid) (h : GuestTraffic Unit Pid) : Prop where
  account : Account answeredRule s.slot s.processor h
  once : RunsOnce s.slot s.processor h
  knows : CallerKnows h s.slot s.caller

section

variable {s s' : Slot} {h h' : GuestTraffic Unit Pid} {processor : Pid → ProcessorPc}

theorem Posted.last {r : Request} (hposted : Posted h r) : LastRequest h r := by
  unfold LastRequest
  rw [List.getLast?_eq_getElem?, ← hposted.2, Nat.add_sub_cancel]
  exact hposted.1

theorem posted_post (h : GuestTraffic Unit Pid) (r : Request) : Posted (h.post r) r := by
  simp [Posted, GuestTraffic.post]

theorem Reads.congr {r : Request} {st : SlotState} (hreads : Reads h s r st)
    (hstate : s'.state = s.state) (hsame : SameData s s') : Reads h s' r st := by
  refine ⟨hstate.trans hreads.state, hreads.posted, ?_⟩
  rw [hsame.answer [], hsame.reqBuffer]
  exact hreads.answered

theorem Stored.congr {call : GuestCall} (hstored : Stored s call) (hsame : SameData s s') :
    Stored s' call :=
  ⟨hsame.reqSize.trans hstored.1, hsame.reqBuffer ▸ hstored.2⟩

theorem OwnReply.congr {send : HandleSend} {reply : HandleReply} (hown : OwnReply h s send reply)
    (hbuffer : s'.respBuffer = s.respBuffer) : OwnReply h s' send reply := by
  unfold OwnReply
  rw [hbuffer]
  exact hown

theorem OwnRefusal.congr {send : HandleSend} {reply : HandleReply}
    (hown : OwnRefusal h s send reply) (hlength : s'.reqBuffer.length = s.reqBuffer.length) :
    OwnRefusal h s' send reply := by
  unfold OwnRefusal
  rw [hlength]
  exact hown

theorem RunsOnce.look (ho : RunsOnce s processor h)
    (hready : s'.state = .reqReady → s.state = .reqReady) : RunsOnce s' processor h :=
  ⟨ho.nodup, ho.below, fun hs => ho.untaken (hready hs), ho.unreturned⟩

theorem RunsOnce.post (ho : RunsOnce s processor h) (r : Request) :
    RunsOnce s' processor (h.post r) := by
  have hlength : (h.post r).requests.length = h.requests.length + 1 := by
    simp only [GuestTraffic.post, List.length_append, List.length_singleton]
  have hnew : ∀ run ∈ h.runs, run.request + 1 < (h.post r).requests.length := by
    intro run hrun
    have hlt := ho.below run hrun
    omega
  refine ⟨ho.nodup, ?_, fun _ => hnew, fun _ _ => hnew⟩
  intro run hrun
  have hlt := ho.below run hrun
  omega

variable [DecidableEq Pid]

theorem RunsOnce.proceed (ho : RunsOnce s processor h) {p : Pid} {pc' : ProcessorPc}
    (hruns : h'.runs = h.runs) (hrequests : h'.requests = h.requests)
    (hready : s'.state = .reqReady → s.state = .reqReady)
    (hpc : pc'.unreturned = true → (processor p).unreturned = true ∨ s.state = .reqReady) :
    RunsOnce s' (Function.update processor p pc') h' := by
  refine ⟨?_, ?_, ?_, ?_⟩
  · rw [hruns]
    exact ho.nodup
  · rw [hruns, hrequests]
    exact ho.below
  · rw [hruns, hrequests]
    exact fun hs => ho.untaken (hready hs)
  · rw [hruns, hrequests]
    refine (Function.forall_update_iff processor fun _ pc => pc.unreturned = true →
      ∀ run ∈ h.runs, run.request + 1 < h.requests.length).mpr ⟨?_, fun q _ => ho.unreturned q⟩
    intro hpc'
    cases hpc hpc' with
    | inl hold => exact ho.unreturned p hold
    | inr hstate => exact ho.untaken hstate

theorem RunsOnce.returns (ho : RunsOnce s processor h) {p : Pid} {run : GuestRun}
    {writes : List HeaderWrite} (hp : (processor p).unreturned = true)
    (hbusy : s.state ≠ .reqReady) (hothers : ∀ q, q ≠ p → (processor q).served = false)
    (hrequest : run.request + 1 = h.requests.length) :
    RunsOnce s (Function.update processor p (.lock writes)) { h with runs := run :: h.runs } := by
  have hold := ho.unreturned p hp
  refine ⟨?_, ?_, fun hs => absurd hs hbusy, ?_⟩
  · simp only [List.map_cons, List.nodup_cons, List.mem_map, not_exists, not_and]
    refine ⟨fun other hother heq => ?_, ho.nodup⟩
    have hlt := hold other hother
    omega
  · intro other hother
    cases List.mem_cons.mp hother with
    | inl heq =>
      rw [heq]
      simp only
      omega
    | inr hmem => exact ho.below other hmem
  · refine (Function.forall_update_iff processor fun _ pc => pc.unreturned = true →
      ∀ other ∈ run :: h.runs, other.request + 1 < h.requests.length).mpr
      ⟨(by intro hlock; cases hlock), ?_⟩
    intro q hq hpc
    have hserved := hothers q hq
    cases hpcq : processor q with
    | storeLease | loadReqSize | loadMsgType | handling => rw [hpcq] at hserved; cases hserved
    | _ => rw [hpcq] at hpc; cases hpc

end

end ShmIpc.Slots
