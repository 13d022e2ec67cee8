import ShmIpc.Slots.GuestThread
import ShmIpc.Slots.Worker

/-!
A host thread inside `ProcessGuestCalls`, seen from one guest slot. Any number of
threads may process guest calls at the same time; the claiming swap decides which
of them gets a request. The handler is foreign code, as on the guest's side, but it
returns a size only and does not panic. Every answer goes through the publish lock.
-/

namespace ShmIpc.Slots

inductive ProcessorPc
  | scanning
  | bumpGen
  | claim
  | storeLease
  | loadReqSize
  | loadMsgType (reqSize : Int)
  | handling (msgType : MsgType) (reqSize : Int)
  | lock (writes : List HeaderWrite)
  | write (writes : List HeaderWrite)
  | publish
  deriving DecidableEq

inductive ProcessorMove
  | advance (now : Nat)
  | handlerReads
  | handlerWrites (bytes : List UInt8)
  | handlerReturns (respSize : Int)
  deriving DecidableEq

/-- The header of an answer: a size beyond the response area turns it into an error. -/
def answerWrites (s : Slot) (respSize : Int) : List HeaderWrite :=
  if s.respBuffer.length < respSize.natAbs then [.msgType .systemError, .respSize 0]
  else [.respSize respSize]

/-- One atomic step of `ProcessGuestCalls`. Without auto-reclaim on the host the
generation and the lease are left alone. -/
def processorStep (config : GuestConfig) (s : Slot) :
    ProcessorPc → ProcessorMove → Option (Slot × ProcessorPc)
  | .scanning, .advance _ =>
    if s.state = .reqReady then some (s, if config.hostReclaim then .bumpGen else .claim)
    else some (s, .scanning)
  | .bumpGen, .advance _ => some (s.bumpGen, .claim)
  | .claim, .advance _ =>
    if s.state = .reqReady then
      some ({ s with state := .busy }, if config.hostReclaim then .storeLease else .loadReqSize)
    else some (s, .scanning)
  | .storeLease, .advance now => some ({ s with lease := now }, .loadReqSize)
  | .loadReqSize, .advance _ =>
    if s.reqBuffer.length < s.reqSize.natAbs then
      some (s, .lock [.respSize 0, .msgType .systemError])
    else some (s, .loadMsgType s.reqSize)
  | .loadMsgType reqSize, .advance _ => some (s, .handling s.msgType reqSize)
  | .handling msgType reqSize, .handlerReads => some (s, .handling msgType reqSize)
  | .handling msgType reqSize, .handlerWrites bytes =>
    if bytes.length = s.respBuffer.length then
      some ({ s with respBuffer := bytes }, .handling msgType reqSize)
    else none
  | .handling _ _, .handlerReturns respSize => some (s, .lock (answerWrites s respSize))
  | .lock writes, .advance _ =>
    if s.state = .busy then some ({ s with state := .done }, .write writes)
    else some (s, .scanning)
  | .write [], .advance _ => some (s, .publish)
  | .write (w :: writes), .advance _ => some (w.apply s, .write writes)
  | .publish, .advance _ =>
    if s.state = .done then some ({ s with state := .respReady }, .scanning)
    else some (s, .scanning)
  | _, _ => none

/-- The steps of a processor, by where it is. -/
inductive ProcessorGoes (config : GuestConfig) (s : Slot) :
    ProcessorPc → ProcessorMove → Slot → ProcessorPc → Prop
  | found (now : Nat) (hstate : s.state = .reqReady) :
      ProcessorGoes config s .scanning (.advance now) s
        (if config.hostReclaim then .bumpGen else .claim)
  | scan (now : Nat) (hstate : s.state ≠ .reqReady) :
      ProcessorGoes config s .scanning (.advance now) s .scanning
  | bump (now : Nat) : ProcessorGoes config s .bumpGen (.advance now) s.bumpGen .claim
  | claim (now : Nat) (hstate : s.state = .reqReady) :
      ProcessorGoes config s .claim (.advance now) { s with state := .busy }
        (if config.hostReclaim then .storeLease else .loadReqSize)
  | missed (now : Nat) (hstate : s.state ≠ .reqReady) :
      ProcessorGoes config s .claim (.advance now) s .scanning
  | lease (now : Nat) :
      ProcessorGoes config s .storeLease (.advance now) { s with lease := now } .loadReqSize
  | refuse (now : Nat) (hsize : s.reqBuffer.length < s.reqSize.natAbs) :
      ProcessorGoes config s .loadReqSize (.advance now) s
        (.lock [.respSize 0, .msgType .systemError])
  | size (now : Nat) (hsize : ¬ s.reqBuffer.length < s.reqSize.natAbs) :
      ProcessorGoes config s .loadReqSize (.advance now) s (.loadMsgType s.reqSize)
  | call (reqSize : Int) (now : Nat) :
      ProcessorGoes config s (.loadMsgType reqSize) (.advance now) s (.handling s.msgType reqSize)
  | reads (msgType : MsgType) (reqSize : Int) :
      ProcessorGoes config s (.handling msgType reqSize) .handlerReads s (.handling msgType reqSize)
  | writes (msgType : MsgType) (reqSize : Int) (bytes : List UInt8)
      (hlength : bytes.length = s.respBuffer.length) :
      ProcessorGoes config s (.handling msgType reqSize) (.handlerWrites bytes)
        { s with respBuffer := bytes } (.handling msgType reqSize)
  | returns (msgType : MsgType) (reqSize respSize : Int) :
      ProcessorGoes config s (.handling msgType reqSize) (.handlerReturns respSize) s
        (.lock (answerWrites s respSize))
  | lock (writes : List HeaderWrite) (now : Nat) (hstate : s.state = .busy) :
      ProcessorGoes config s (.lock writes) (.advance now) { s with state := .done } (.write writes)
  | lost (writes : List HeaderWrite) (now : Nat) (hstate : s.state ≠ .busy) :
      ProcessorGoes config s (.lock writes) (.advance now) s .scanning
  | write (w : HeaderWrite) (writes : List HeaderWrite) (now : Nat) :
      ProcessorGoes config s (.write (w :: writes)) (.advance now) (w.apply s) (.write writes)
  | written (now : Nat) : ProcessorGoes config s (.write []) (.advance now) s .publish
  | publish (now : Nat) (hstate : s.state = .done) :
      ProcessorGoes config s .publish (.advance now) { s with state := .respReady } .scanning
  | withdrawn (now : Nat) (hstate : s.state ≠ .done) :
      ProcessorGoes config s .publish (.advance now) s .scanning

theorem processorGoes_of_step {config : GuestConfig} {s s' : Slot} {pc pc' : ProcessorPc}
    {move : ProcessorMove} (h : processorStep config s pc move = some (s', pc')) :
    ProcessorGoes config s pc move s' pc' := by
  revert h
  fun_cases processorStep config s pc move with
  | case1 now hstate => intro h; cases h; exact .found now hstate
  | case2 now hstate => intro h; cases h; exact .scan now hstate
  | case3 now => intro h; cases h; exact .bump now
  | case4 now hstate => intro h; cases h; exact .claim now hstate
  | case5 now hstate => intro h; cases h; exact .missed now hstate
  | case6 now => intro h; cases h; exact .lease now
  | case7 now hsize => intro h; cases h; exact .refuse now hsize
  | case8 now hsize => intro h; cases h; exact .size now hsize
  | case9 reqSize now => intro h; cases h; exact .call reqSize now
  | case10 msgType reqSize => intro h; cases h; exact .reads msgType reqSize
  | case11 msgType reqSize bytes hlength =>
    intro h
    cases h
    exact .writes msgType reqSize bytes hlength
  | case13 msgType reqSize respSize => intro h; cases h; exact .returns msgType reqSize respSize
  | case14 writes now hstate => intro h; cases h; exact .lock writes now hstate
  | case15 writes now hstate => intro h; cases h; exact .lost writes now hstate
  | case16 now => intro h; cases h; exact .written now
  | case17 w writes now => intro h; cases h; exact .write w writes now
  | case18 now hstate => intro h; cases h; exact .publish now hstate
  | case19 now hstate => intro h; cases h; exact .withdrawn now hstate
  | case12 | case20 => intro h; cases h

end ShmIpc.Slots
