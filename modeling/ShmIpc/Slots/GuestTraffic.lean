import ShmIpc.Slots.GuestSystem

/-!
What passes through a guest slot: the requests that the goroutines publish, which
of them each processor has taken, and the runs of the handler. A run belongs to the
request its processor has taken. What it saw of the request area is recorded look
by look, because the area is shared memory.
-/

namespace ShmIpc.Slots

variable {Tid Pid : Type}

structure GuestRun where
  request : Nat
  msgType : MsgType
  views : List (List UInt8)
  answer : Option (Int × List UInt8)
  deriving DecidableEq

/-- Requests are numbered in the order of publication. A goroutine's own request is
the one its latest call published; a processor has taken the one before `taken`. The
finished runs stand in `runs`, the latest one first. -/
structure GuestTraffic (Tid Pid : Type) where
  requests : List Request
  mine : Tid → Nat
  taken : Pid → Nat
  current : Pid → GuestRun
  runs : List GuestRun

def GuestTraffic.empty : GuestTraffic Tid Pid :=
  ⟨[], fun _ => 0, fun _ => 0, fun _ => ⟨0, .normal, [], none⟩, []⟩

def GuestCall.request (call : GuestCall) : Request := ⟨call.msgType, call.reqSize, call.data⟩

/-- A response to the request which the goroutine's call published: what a run of the
handler for exactly this request answered. -/
def OwnResponse (h : GuestTraffic Tid Pid) (t : Tid) (call : GuestCall) (bytes : List UInt8) :
    Prop :=
  h.requests[h.mine t]? = some call.request ∧ ∃ run ∈ h.runs, run.request = h.mine t ∧
    run.msgType = call.msgType ∧ (∀ view ∈ run.views, view = call.data) ∧
    ∃ respSize respBuffer, run.answer = some (respSize, respBuffer) ∧
      bytes = sized respBuffer respSize

/-- A call of the goroutine is about to return these response bytes. -/
def GuestReturns (config : GuestConfig) (s : GuestSystem Tid Pid) (t : Tid) (call : GuestCall)
    (bytes : List UInt8) : Prop :=
  ∃ now pc, s.guest t = .sending call pc ∧
    (guestSendStep config now s.slot call pc).2 = .returned (.response bytes)

variable [DecidableEq Tid] [DecidableEq Pid]

def GuestTraffic.publish (h : GuestTraffic Tid Pid) (t : Tid) (call : GuestCall) :
    GuestTraffic Tid Pid :=
  { h with
    requests := h.requests ++ [call.request]
    mine := Function.update h.mine t h.requests.length }

def recordGuest (h : GuestTraffic Tid Pid) (t : Tid) : GuestPc → GuestMove → GuestTraffic Tid Pid
  | .sending call (.storeReqReady _), .advance _ => h.publish t call
  | _, _ => h

def recordProcessor (s : Slot) (h : GuestTraffic Tid Pid) (p : Pid) :
    ProcessorPc → ProcessorMove → GuestTraffic Tid Pid
  | .claim, .advance _ =>
    if s.state = .reqReady then
      { h with taken := Function.update h.taken p h.requests.length }
    else h
  | .loadMsgType _, .advance _ =>
    { h with current := Function.update h.current p ⟨h.taken p - 1, s.msgType, [], none⟩ }
  | .handling _ reqSize, .handlerReads =>
    let run := h.current p
    let run' := { run with views := sized s.reqBuffer reqSize :: run.views }
    { h with current := Function.update h.current p run' }
  | .handling _ _, .handlerReturns respSize =>
    let run := h.current p
    { h with runs := { run with answer := some (respSize, s.respBuffer) } :: h.runs }
  | _, _ => h

def recordCalls (s : GuestSystem Tid Pid) (a : GuestAction Tid Pid) (_ : GuestSystem Tid Pid)
    (h : GuestTraffic Tid Pid) : GuestTraffic Tid Pid :=
  match a with
  | .guest t move => recordGuest h t (s.guest t) move
  | .processor p move => recordProcessor s.slot h p (s.processor p) move

end ShmIpc.Slots
