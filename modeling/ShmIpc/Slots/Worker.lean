import ShmIpc.Slots.Memory

/-!
The guest's worker of a host slot. It claims a published request, reads the
header, answers some message types itself and passes the others to the handler.
The handler is foreign code: while it runs it may look at the request area and
write the response area any number of times, and it may return late, with any
answer, or panic. Every answer goes through the publish lock first.
-/

namespace ShmIpc.Slots

inductive HeaderWrite
  | respSize (value : Int)
  | msgType (value : MsgType)
  deriving DecidableEq

def HeaderWrite.apply (s : Slot) : HeaderWrite → Slot
  | .respSize value => { s with respSize := value }
  | .msgType value => { s with msgType := value }

theorem HeaderWrite.apply_frame (s : Slot) (w : HeaderWrite) : (w.apply s).state = s.state ∧
    (w.apply s).reqSize = s.reqSize ∧ (w.apply s).reqBuffer = s.reqBuffer := by
  cases w with
  | respSize _ => exact ⟨rfl, rfl, rfl⟩
  | msgType _ => exact ⟨rfl, rfl, rfl⟩

/-- The header and the response area, once the pending header writes are done. -/
def answerAfter (s : Slot) : List HeaderWrite → Int × MsgType × List UInt8
  | [] => (s.respSize, s.msgType, s.respBuffer)
  | w :: writes => answerAfter (w.apply s) writes

theorem answerAfter_congr {s s' : Slot} (writes : List HeaderWrite)
    (hsize : s'.respSize = s.respSize) (htype : s'.msgType = s.msgType)
    (hbuffer : s'.respBuffer = s.respBuffer) : answerAfter s' writes = answerAfter s writes := by
  induction writes generalizing s s' with
  | nil =>
    simp only [answerAfter]
    rw [hsize, htype, hbuffer]
  | cons w writes ih =>
    cases w with
    | respSize value => exact ih rfl htype hbuffer
    | msgType value => exact ih hsize rfl hbuffer

/-- The next action of the worker. The header writes of an answer are prepared
before the lock; `exits` says that the worker stops after this answer. -/
inductive WorkerPc
  | polling
  | bumpGen
  | claim
  | storeLease
  | loadMsgType
  | loadReqSize (msgType : MsgType)
  | handling (msgType : MsgType) (reqSize : Int)
  | recovering
  | lock (writes : List HeaderWrite) (exits : Bool)
  | write (writes : List HeaderWrite) (exits : Bool)
  | publish (exits : Bool)
  | exited
  deriving DecidableEq

inductive WorkerMove
  | advance (now : Nat)
  | close
  | handlerReads
  | handlerWrites (bytes : List UInt8)
  | handlerReturns (respSize : Int) (respType : MsgType)
  | handlerPanics
  deriving DecidableEq

/-- Whether the request area holds as many bytes as the header says. -/
def Go.sizeFits (s : Slot) (reqSize : Int) : Bool :=
  if 0 ≤ reqSize then decide (reqSize ≤ s.reqBuffer.length)
  else decide (0 ≤ negInt32 reqSize) && decide (negInt32 reqSize ≤ s.reqBuffer.length)

def WorkerPc.afterAnswer (exits : Bool) : WorkerPc :=
  if exits then .exited else .polling

/-- One atomic step of `workerLoop`. -/
def workerStep (layout : Layout) (s : Slot) : WorkerPc → WorkerMove → Option (Slot × WorkerPc)
  | .polling, .advance _ =>
    if s.state = .reqReady then
      some (s, if layout.fastPathAllowed then .claim else .bumpGen)
    else some (s, .polling)
  | .polling, .close => some (s, .exited)
  | .bumpGen, .advance _ => some (s.bumpGen, .claim)
  | .claim, .advance _ =>
    if s.state = .reqReady then
      some ({ s with state := .guestBusy },
        if layout.fastPathAllowed then .loadMsgType else .storeLease)
    else some (s, .polling)
  | .storeLease, .advance now => some ({ s with lease := now }, .loadMsgType)
  | .loadMsgType, .advance _ =>
    if s.msgType = .shutdown then some (s, .lock [.respSize 0] true)
    else if s.msgType = .heartbeatReq then
      some (s, .lock [.msgType .heartbeatResp, .respSize 0] false)
    else some (s, .loadReqSize s.msgType)
  | .loadReqSize msgType, .advance _ =>
    if Go.sizeFits s s.reqSize then some (s, .handling msgType s.reqSize)
    else some (s, .lock [.respSize 0, .msgType .systemError] false)
  | .handling msgType reqSize, .handlerReads => some (s, .handling msgType reqSize)
  | .handling msgType reqSize, .handlerWrites bytes =>
    if bytes.length = s.respBuffer.length then
      some ({ s with respBuffer := bytes }, .handling msgType reqSize)
    else none
  | .handling _ _, .handlerReturns respSize respType =>
    some (s, .lock [.respSize respSize, .msgType respType] false)
  | .handling _ _, .handlerPanics => some (s, .recovering)
  | .recovering, .advance _ =>
    if s.state = .guestBusy then some (s, .lock [.msgType .systemError, .respSize 0] false)
    else some (s, .polling)
  | .recovering, .close => some (s, .exited)
  | .lock writes exits, .advance _ =>
    if s.state = .guestBusy then some ({ s with state := .done }, .write writes exits)
    else some (s, .afterAnswer exits)
  | .write [] exits, .advance _ => some (s, .publish exits)
  | .write (w :: writes) exits, .advance _ => some (w.apply s, .write writes exits)
  | .publish exits, .advance _ =>
    if s.state = .done then some ({ s with state := .respReady }, .afterAnswer exits)
    else some (s, .afterAnswer exits)
  | _, _ => none

/-- The steps of the worker, by where it is. -/
inductive WorkerGoes (layout : Layout) (s : Slot) :
    WorkerPc → WorkerMove → Slot → WorkerPc → Prop
  | found (now : Nat) (hstate : s.state = .reqReady) :
      WorkerGoes layout s .polling (.advance now) s
        (if layout.fastPathAllowed then .claim else .bumpGen)
  | poll (now : Nat) (hstate : s.state ≠ .reqReady) :
      WorkerGoes layout s .polling (.advance now) s .polling
  | close : WorkerGoes layout s .polling .close s .exited
  | bump (now : Nat) : WorkerGoes layout s .bumpGen (.advance now) s.bumpGen .claim
  | claim (now : Nat) (hstate : s.state = .reqReady) :
      WorkerGoes layout s .claim (.advance now) { s with state := .guestBusy }
        (if layout.fastPathAllowed then .loadMsgType else .storeLease)
  | missed (now : Nat) (hstate : s.state ≠ .reqReady) :
      WorkerGoes layout s .claim (.advance now) s .polling
  | lease (now : Nat) :
      WorkerGoes layout s .storeLease (.advance now) { s with lease := now } .loadMsgType
  | shutdown (now : Nat) (htype : s.msgType = .shutdown) :
      WorkerGoes layout s .loadMsgType (.advance now) s (.lock [.respSize 0] true)
  | heartbeat (now : Nat) (htype : s.msgType = .heartbeatReq) :
      WorkerGoes layout s .loadMsgType (.advance now) s
        (.lock [.msgType .heartbeatResp, .respSize 0] false)
  | request (now : Nat) (hshutdown : s.msgType ≠ .shutdown)
      (hheartbeat : s.msgType ≠ .heartbeatReq) :
      WorkerGoes layout s .loadMsgType (.advance now) s (.loadReqSize s.msgType)
  | call (msgType : MsgType) (now : Nat) (hfits : Go.sizeFits s s.reqSize = true) :
      WorkerGoes layout s (.loadReqSize msgType) (.advance now) s (.handling msgType s.reqSize)
  | refuse (msgType : MsgType) (now : Nat) (hfits : ¬ Go.sizeFits s s.reqSize = true) :
      WorkerGoes layout s (.loadReqSize msgType) (.advance now) s
        (.lock [.respSize 0, .msgType .systemError] false)
  | reads (msgType : MsgType) (reqSize : Int) :
      WorkerGoes layout s (.handling msgType reqSize) .handlerReads s (.handling msgType reqSize)
  | writes (msgType : MsgType) (reqSize : Int) (bytes : List UInt8)
      (hlength : bytes.length = s.respBuffer.length) :
      WorkerGoes layout s (.handling msgType reqSize) (.handlerWrites bytes)
        { s with respBuffer := bytes } (.handling msgType reqSize)
  | returns (msgType : MsgType) (reqSize respSize : Int) (respType : MsgType) :
      WorkerGoes layout s (.handling msgType reqSize) (.handlerReturns respSize respType) s
        (.lock [.respSize respSize, .msgType respType] false)
  | panics (msgType : MsgType) (reqSize : Int) :
      WorkerGoes layout s (.handling msgType reqSize) .handlerPanics s .recovering
  | recover (now : Nat) (hstate : s.state = .guestBusy) :
      WorkerGoes layout s .recovering (.advance now) s
        (.lock [.msgType .systemError, .respSize 0] false)
  | stolen (now : Nat) (hstate : s.state ≠ .guestBusy) :
      WorkerGoes layout s .recovering (.advance now) s .polling
  | closeLate : WorkerGoes layout s .recovering .close s .exited
  | lock (writes : List HeaderWrite) (exits : Bool) (now : Nat) (hstate : s.state = .guestBusy) :
      WorkerGoes layout s (.lock writes exits) (.advance now) { s with state := .done }
        (.write writes exits)
  | lost (writes : List HeaderWrite) (exits : Bool) (now : Nat) (hstate : s.state ≠ .guestBusy) :
      WorkerGoes layout s (.lock writes exits) (.advance now) s (.afterAnswer exits)
  | write (w : HeaderWrite) (writes : List HeaderWrite) (exits : Bool) (now : Nat) :
      WorkerGoes layout s (.write (w :: writes) exits) (.advance now) (w.apply s)
        (.write writes exits)
  | written (exits : Bool) (now : Nat) :
      WorkerGoes layout s (.write [] exits) (.advance now) s (.publish exits)
  | publish (exits : Bool) (now : Nat) (hstate : s.state = .done) :
      WorkerGoes layout s (.publish exits) (.advance now) { s with state := .respReady }
        (.afterAnswer exits)
  | withdrawn (exits : Bool) (now : Nat) (hstate : s.state ≠ .done) :
      WorkerGoes layout s (.publish exits) (.advance now) s (.afterAnswer exits)

theorem workerGoes_of_step {layout : Layout} {s s' : Slot} {pc pc' : WorkerPc} {move : WorkerMove}
    (h : workerStep layout s pc move = some (s', pc')) : WorkerGoes layout s pc move s' pc' := by
  revert h
  fun_cases workerStep layout s pc move with
  | case1 now hstate => intro h; cases h; exact .found now hstate
  | case2 now hstate => intro h; cases h; exact .poll now hstate
  | case3 => intro h; cases h; exact .close
  | case4 now => intro h; cases h; exact .bump now
  | case5 now hstate => intro h; cases h; exact .claim now hstate
  | case6 now hstate => intro h; cases h; exact .missed now hstate
  | case7 now => intro h; cases h; exact .lease now
  | case8 now htype => intro h; cases h; exact .shutdown now htype
  | case9 now _ htype => intro h; cases h; exact .heartbeat now htype
  | case10 now hshutdown hheartbeat => intro h; cases h; exact .request now hshutdown hheartbeat
  | case11 msgType now hfits => intro h; cases h; exact .call msgType now hfits
  | case12 msgType now hfits => intro h; cases h; exact .refuse msgType now hfits
  | case13 msgType reqSize => intro h; cases h; exact .reads msgType reqSize
  | case14 msgType reqSize bytes hlength =>
    intro h
    cases h
    exact .writes msgType reqSize bytes hlength
  | case16 msgType reqSize respSize respType =>
    intro h
    cases h
    exact .returns msgType reqSize respSize respType
  | case17 msgType reqSize => intro h; cases h; exact .panics msgType reqSize
  | case18 now hstate => intro h; cases h; exact .recover now hstate
  | case19 now hstate => intro h; cases h; exact .stolen now hstate
  | case20 => intro h; cases h; exact .closeLate
  | case21 writes exits now hstate => intro h; cases h; exact .lock writes exits now hstate
  | case22 writes exits now hstate => intro h; cases h; exact .lost writes exits now hstate
  | case23 exits now => intro h; cases h; exact .written exits now
  | case24 w writes exits now => intro h; cases h; exact .write w writes exits now
  | case25 exits now hstate => intro h; cases h; exact .publish exits now hstate
  | case26 exits now hstate => intro h; cases h; exact .withdrawn exits now hstate
  | case15 | case27 => intro h; cases h

end ShmIpc.Slots
