import ShmIpc.Slots.Ownership

/-!
What passes through a host slot that a single thread uses: the requests the
thread publishes, the request the worker has claimed, and the runs of the
handler. A run belongs to the request whose claim led to it. What it saw of the
request area is recorded look by look, because the area is shared memory that the
host may write again once it has given up on the request.
-/

namespace ShmIpc.Slots

open Library

structure HandlerRun where
  request : Nat
  msgType : MsgType
  views : List (List UInt8)
  answer : Option (Int × MsgType × List UInt8)
  deriving DecidableEq

/-- Requests are numbered in the order of publication: `mine` is the one which the
latest send of the thread published, and the worker's latest claim took the one
before `taken`. The latest run stands first. -/
structure Traffic where
  requests : List Request
  mine : Nat
  taken : Nat
  runs : List HandlerRun
  deriving DecidableEq

def Traffic.empty : Traffic := ⟨[], 0, 0, []⟩

def Traffic.publish (h : Traffic) (call : HostCall) (s : Slot) : Traffic :=
  { h with
    requests := h.requests ++ [⟨call.msgType, call.size, sized s.reqBuffer call.size⟩]
    mine := h.requests.length }

def recordHost (s : Slot) (h : Traffic) : HostPc → HostMove → Traffic
  | .sending call (.storeReqReady _), .advance _ => h.publish call s
  | _, _ => h

def recordWorker (s : Slot) (h : Traffic) : WorkerPc → WorkerMove → Traffic
  | .claim, .advance _ =>
    if s.state = .reqReady then { h with taken := h.requests.length } else h
  | .loadReqSize msgType, .advance _ =>
    if Go.sizeFits s s.reqSize then
      { h with runs := ⟨h.taken - 1, msgType, [], none⟩ :: h.runs }
    else h
  | .handling _ reqSize, .handlerReads =>
    { h with runs := h.runs.modifyHead fun run =>
        { run with views := sized s.reqBuffer reqSize :: run.views } }
  | .handling _ _, .handlerReturns respSize respType =>
    { h with runs := h.runs.modifyHead fun run =>
        { run with answer := some (respSize, respType, s.respBuffer) } }
  | _, _ => h

def recordTraffic (s : HostSystem Unit) (a : HostAction Unit) (_ : HostSystem Unit)
    (h : Traffic) : Traffic :=
  match a with
  | .host t move => recordHost s.slot h (s.host t) move
  | .worker move => recordWorker s.slot h s.worker move

/-- A call is about to return these response bytes. -/
def Returns (layout : Layout) (s : HostSystem Unit) (bytes : List UInt8) : Prop :=
  ∃ now call pc, s.host () = .sending call pc ∧
    ((sendStep layout now s.slot call pc).2 = .keeps (.response bytes) ∨
      (sendStep layout now s.slot call pc).2 = .leaves (.response bytes))

/-- A response to the request which the current call published: as many bytes as a run of
the handler for exactly this request announced, and the ones it left in the response area;
or the empty reply which the worker gives to its own message types. -/
inductive Answers (h : Traffic) (r : Request) (bytes : List UInt8) : Prop
  | handler (run : HandlerRun) (respSize : Int) (respType : MsgType) (respBuffer : List UInt8)
      (hmem : run ∈ h.runs) (hrequest : run.request = h.mine) (htype : run.msgType = r.msgType)
      (hviews : ∀ view ∈ run.views, view = r.data)
      (hanswer : run.answer = some (respSize, respType, respBuffer))
      (hsize : bytes.length = respSize.natAbs) (hbytes : bytes = sized respBuffer respSize)
  | worker (htype : r.msgType = .shutdown ∨ r.msgType = .heartbeatReq) (hbytes : bytes = [])

/-- The handler's answer is an error or fits the response area. -/
def HandlerRun.fits (run : HandlerRun) : Bool :=
  match run.answer with
  | some (respSize, respType, respBuffer) =>
    respType = .systemError || decide (respSize.natAbs ≤ respBuffer.length)
  | none => true

/-- What the host's own copy makes of the answer of a run for the current call, whatever
the size in it. -/
inductive Copied (h : Traffic) (r : Request) (bytes : List UInt8) : Prop
  | handler (run : HandlerRun) (respSize : Int) (respType : MsgType) (respBuffer : List UInt8)
      (hmem : run ∈ h.runs) (hrequest : run.request = h.mine) (htype : run.msgType = r.msgType)
      (hviews : ∀ view ∈ run.views, view = r.data)
      (hanswer : run.answer = some (respSize, respType, respBuffer))
      (hreply : respType ≠ .systemError) (hbytes : bytes = copyOut respBuffer respSize)
  | worker (htype : r.msgType = .shutdown ∨ r.msgType = .heartbeatReq) (hbytes : bytes = [])

theorem Copied.answers {h : Traffic} {r : Request} {bytes : List UInt8} (hcopied : Copied h r bytes)
    (hfits : ∀ run ∈ h.runs, run.request = h.mine → run.fits = true) : Answers h r bytes := by
  cases hcopied with
  | worker htype hbytes => exact .worker htype hbytes
  | handler run respSize respType respBuffer hmem hrequest htype hviews hanswer hreply hbytes =>
    have hle := hfits run hmem hrequest
    simp only [HandlerRun.fits, hanswer, hreply, decide_false, Bool.false_or,
      decide_eq_true_eq] at hle
    rw [copyOut_eq_sized respBuffer respSize hle] at hbytes
    refine .handler run respSize respType respBuffer hmem hrequest htype hviews hanswer ?_ hbytes
    rw [hbytes, length_sized hle]

end ShmIpc.Slots
