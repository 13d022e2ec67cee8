import ShmIpc.Library.Tenure
import ShmIpc.Slots.GuestHandle
import ShmIpc.Slots.SizeField

/-!
The objects through which a caller holds a slot: `ZeroCopySlot` and `HeldSlot` in C++,
`GuestSlot` in Go. Each has its own mark for a slot it no longer holds: the index −1, the
flag `lost`, a nil slot. C++ objects are moved and destroyed, a Go handle is a pointer.

A handle is used by one caller at a time, while everybody else goes on: the peer, other
handles, reclaimers may change any slot between any two steps of a send. A ledger runs
along. Each acquisition begins a tenure, which travels with the handle when it is moved
and ends when the handle stores `free` in the slot or disowns it.
-/

namespace ShmIpc.Slots

open Library

/-- The members of a `ZeroCopySlot` or a `HeldSlot`: whether `host` is set, the index, and
the session of the host whose shared state `weakState` refers to. -/
structure HostHandle where
  host : Bool
  slotIdx : Option Nat
  weakState : Option Nat
  deriving DecidableEq

/-- What a move leaves behind. -/
def HostHandle.movedFrom : HostHandle := ⟨false, none, none⟩

/-- The slot that a handle acts on while its session lasts, if any. -/
def HostHandle.reaches (h : HostHandle) : Option Nat :=
  if h.weakState.isSome && h.host then h.slotIdx else none

structure GuestSlot where
  slot : Option Nat
  lost : Bool
  deriving DecidableEq

/-- `dead` says that there is none. -/
def GuestSlot.reaches (g : GuestSlot) : Option Nat :=
  if g.lost then none else g.slot

inductive Handle
  | zeroCopy (h : HostHandle)
  | held (h : HostHandle)
  | guest (g : GuestSlot)
  deriving DecidableEq

def Handle.reaches : Handle → Option Nat
  | .zeroCopy h | .held h => h.reaches
  | .guest g => g.reaches

/-- The slot a call on the handle may touch: `IsValid`, or not `dead`. -/
def Handle.slot (session : Option Nat) : Handle → Option Nat
  | .zeroCopy h | .held h => if h.weakState = session then h.reaches else none
  | .guest g => g.reaches

/-- The handle after a send that must not touch the slot again. -/
def Handle.disowned : Handle → Handle
  | .zeroCopy h => .zeroCopy { h with slotIdx := none }
  | .held h => .held { h with slotIdx := none }
  | .guest g => .guest { g with lost := true }

inductive Sending
  | host (call : HostCall) (pc : SendPc)
  | guest (send : HandleSend) (pc : HandlePc)
  deriving DecidableEq

/-- A variable of handle type, and what its handle is doing. -/
inductive HandleVar
  | absent
  | idle (handle : Handle)
  | sending (handle : Handle) (slot : Nat) (send : Sending)
  deriving DecidableEq

def HandleVar.reaches : HandleVar → Option Nat
  | .absent => none
  | .idle handle | .sending handle _ _ => handle.reaches

/-- How an operation ends the handle's hold on its slot, if it does. -/
inductive Ending
  | none
  | freed
  | forfeited
  deriving DecidableEq

inductive HandleKind
  | zeroCopy
  | held
  | guest
  deriving DecidableEq

/-- The handle that an acquisition returns; a C++ one may be empty. -/
def HandleKind.handle (kind : HandleKind) (session : Option Nat) (slot : Option Nat) : Handle :=
  match kind with
  | .zeroCopy => .zeroCopy ⟨true, slot, session⟩
  | .held => .held ⟨true, slot, session⟩
  | .guest => .guest ⟨slot, false⟩

/-- The operations on one handle; `advance` and `expire` are the steps of its send. -/
inductive HandleOp
  | access
  | send (size : Int) (msgType : MsgType)
  | sendFlatBuffer (size : Int)
  | advance (now : Nat)
  | expire
  | release
  | destroy
  deriving DecidableEq

structure HandleConfig where
  layout : Layout
  guest : GuestConfig

structure OpResult where
  mem : Nat → Slot
  var : HandleVar
  ending : Ending

def storeFree (mem : Nat → Slot) (i : Nat) : Nat → Slot :=
  Function.update mem i { mem i with state := .free }

/-- The store of `~ZeroCopySlot`, of `HeldSlot::Release`, and of a move assignment to either. -/
def HostHandle.giveBack (session : Option Nat) (mem : Nat → Slot) (h : HostHandle) :
    (Nat → Slot) × Ending :=
  match h.reaches with
  | none => (mem, .none)
  | some i => if h.weakState = session then (storeFree mem i, .freed) else (mem, .forfeited)

/-- `GuestSlot.Release`, a swap from the owned state. -/
def GuestSlot.release (mem : Nat → Slot) (g : GuestSlot) : (Nat → Slot) × GuestSlot × Ending :=
  match g.reaches with
  | none => (mem, { g with slot := none }, .none)
  | some i =>
    if (mem i).state = .guestBusy then (storeFree mem i, { g with slot := none }, .freed)
    else (mem, { g with slot := none }, .forfeited)

/-- The first step of a send, if the handle has a slot; without one it is refused. -/
def Handle.sending (session : Option Nat) (handle : Handle) (size : Int)
    (msgType : MsgType) : HandleVar :=
  match handle.slot session with
  | none => .idle handle
  | some i =>
    .sending handle i (match handle with
      | .zeroCopy _ => .host ⟨.zeroCopy, size, msgType⟩ .checkSize
      | .held _ => .host ⟨.held, size, msgType⟩ .checkSize
      | .guest _ => .guest ⟨size, msgType⟩ .checkSize)

/-- `SendFlatBuffer` has a check of its own and goes on as `Send` does. -/
def HostHandle.sendingFlatBuffer (session : Option Nat) (mem : Nat → Slot) (h : HostHandle)
    (size : Int) : HandleVar :=
  match (Handle.zeroCopy h).slot session with
  | none => .idle (.zeroCopy h)
  | some i =>
    if (mem i).reqBuffer.length < uint32 size then .idle (.zeroCopy h)
    else .sending (.zeroCopy h) i
      (.host ⟨.zeroCopy, int32 (-size), .flatbuffer⟩ .storeReqSize)

/-- A send that returns: kept, given back on the way, or left in flight. -/
def hostReturn (mem : Nat → Slot) (handle : Handle) (i : Nat) (call : HostCall) (pc : SendPc) :
    SendProgress → OpResult
  | .running pc' => ⟨mem, .sending handle i (.host call pc'), .none⟩
  | .inFlight | .keeps _ => ⟨mem, .idle handle, .none⟩
  | .leaves _ => ⟨mem, .idle handle.disowned,
      match pc with
      | .storeFree _ => .freed
      | _ => .forfeited⟩

def guestReturn (mem : Nat → Slot) (handle : Handle) (i : Nat) (send : HandleSend) :
    HandleProgress → OpResult
  | .running pc => ⟨mem, .sending handle i (.guest send pc), .none⟩
  | .replied _ | .failed _ => ⟨mem, .idle handle, .none⟩
  | .forfeited _ => ⟨mem, .idle handle.disowned, .forfeited⟩

def Sending.advance (config : HandleConfig) (now : Nat) (mem : Nat → Slot) (handle : Handle)
    (i : Nat) : Sending → OpResult
  | .host call pc =>
    let r := sendStep config.layout now (mem i) call pc
    hostReturn (Function.update mem i r.1) handle i call pc r.2
  | .guest send pc =>
    let r := handleStep config.guest now (mem i) send pc
    guestReturn (Function.update mem i r.1) handle i send r.2

/-- The wait of a send gives up, after it has seen another state than the awaited one. -/
def Sending.expire (state : SlotState) : Sending → Option Sending
  | .host call (.waiting currentSeq) =>
    if state = .respReady then none else some (.host call (.dropActiveWait currentSeq false))
  | .guest send (.waiting currentSeq) =>
    if state = .respReady then none
    else some (.guest send (.dropActiveWait currentSeq .timedOut))
  | _ => none

/-- An operation on the handle of a variable, if it is one of its type's and possible now. -/
def opStep (config : HandleConfig) (session : Option Nat) (mem : Nat → Slot) :
    HandleVar → HandleOp → Option OpResult
  | .idle handle, .access => some ⟨mem, .idle handle, .none⟩
  | .idle handle, .send size msgType => some ⟨mem, handle.sending session size msgType, .none⟩
  | .idle (.zeroCopy h), .sendFlatBuffer size =>
    some ⟨mem, h.sendingFlatBuffer session mem size, .none⟩
  | .idle (.held h), .release =>
    let r := h.giveBack session mem
    some ⟨r.1, .idle (.held { h with slotIdx := none }), r.2⟩
  | .idle (.guest g), .release =>
    let r := g.release mem
    some ⟨r.1, .idle (.guest r.2.1), r.2.2⟩
  | .idle (.zeroCopy h), .destroy | .idle (.held h), .destroy =>
    let r := h.giveBack session mem
    some ⟨r.1, .absent, r.2⟩
  | .idle (.guest _), .destroy => some ⟨mem, .absent, .none⟩
  | .sending handle i send, .advance now => some (send.advance config now mem handle i)
  | .sending handle i send, .expire =>
    (send.expire (mem i).state).map fun send' => ⟨mem, .sending handle i send', .none⟩
  | _, _ => none

/-- The move of a C++ handle out of a variable: what it takes along, and what stays. -/
def HandleVar.moveOut : HandleVar → Option (Handle × HandleVar)
  | .idle (.zeroCopy h) => some (.zeroCopy h, .idle (.zeroCopy .movedFrom))
  | .idle (.held h) => some (.held h, .idle (.held .movedFrom))
  | _ => none

/-- The current session of the host, how many there have been, the slots, and the
variables of the program. -/
structure HandleSystem where
  session : Option Nat
  sessions : Nat
  mem : Nat → Slot
  vars : Nat → HandleVar

inductive HandleAction
  | declare (v : Nat)
  | acquire (v : Nat) (kind : HandleKind) (slot : Option Nat)
  | op (v : Nat) (op : HandleOp)
  | moveConstruct (dst src : Nat)
  | moveAssign (dst src : Nat)
  | shutdown
  | init
  | elsewhere (i : Nat) (slot : Slot)

namespace HandleSystem

def setVar (s : HandleSystem) (v : Nat) (var : HandleVar) : HandleSystem :=
  { s with vars := Function.update s.vars v var }

/-- A move assignment of one type gives back what its target holds first. -/
def assign (s : HandleSystem) (dst src : Nat) : Option (HandleSystem × Ending) :=
  match s.vars dst, s.vars src with
  | .idle (.zeroCopy old), .idle (.zeroCopy new) =>
    let r := old.giveBack s.session s.mem
    some (({ s with mem := r.1 }.setVar dst (.idle (.zeroCopy new))).setVar src
      (.idle (.zeroCopy .movedFrom)), r.2)
  | .idle (.held old), .idle (.held new) =>
    let r := old.giveBack s.session s.mem
    some (({ s with mem := r.1 }.setVar dst (.idle (.held new))).setVar src
      (.idle (.held .movedFrom)), r.2)
  | _, _ => none

def step (config : HandleConfig) (s : HandleSystem) : HandleAction → Option HandleSystem
  | .declare v =>
    if s.vars v = .absent then some (s.setVar v (.idle (.held .movedFrom))) else none
  | .acquire v kind slot =>
    if s.vars v = .absent ∧ (kind = .guest → slot.isSome) then
      some (s.setVar v (.idle (kind.handle s.session slot)))
    else none
  | .op v op => (opStep config s.session s.mem (s.vars v) op).map fun r =>
    { s with mem := r.mem }.setVar v r.var
  | .moveConstruct dst src =>
    if s.vars dst = .absent ∧ dst ≠ src then
      (s.vars src).moveOut.map fun r => (s.setVar dst (.idle r.1)).setVar src r.2
    else none
  | .moveAssign dst src =>
    if dst = src then some s else (s.assign dst src).map Prod.fst
  | .shutdown => some { s with session := none }
  | .init =>
    if s.session = none then
      some { s with session := some s.sessions, sessions := s.sessions + 1 }
    else none
  | .elsewhere i slot => some { s with mem := Function.update s.mem i slot }

def Initial (s : HandleSystem) : Prop := ∀ v, s.vars v = .absent

end HandleSystem

structure HandleLog where
  ledger : TenureLedger Nat
  slots : List Nat

def HandleLog.new : HandleLog := ⟨.new Nat, []⟩

/-- What the end of a hold does to the tenure. -/
def Ending.settle (ending : Ending) (v : Nat) (l : TenureLedger Nat) : TenureLedger Nat :=
  match ending with
  | .none => l
  | .freed => l.finish v true
  | .forfeited => l.finish v false

/-- A handle that is gone holds nothing. -/
def HandleOp.settle (op : HandleOp) (ending : Ending) (v : Nat) (l : TenureLedger Nat) :
    TenureLedger Nat :=
  if op = .destroy then (ending.settle v l).drop v else ending.settle v l

def recordOp (config : HandleConfig) (s : HandleSystem) (v : Nat) (op : HandleOp)
    (l : TenureLedger Nat) : TenureLedger Nat :=
  match opStep config s.session s.mem (s.vars v) op with
  | none => l
  | some r => op.settle r.ending v l

def recordHandles (config : HandleConfig) (s : HandleSystem) (a : HandleAction)
    (_ : HandleSystem) (h : HandleLog) : HandleLog :=
  match a with
  | .declare v => { h with ledger := h.ledger.drop v }
  | .acquire v _ slot =>
    match slot with
    | none => { h with ledger := h.ledger.drop v }
    | some i => ⟨h.ledger.grant v, h.slots ++ [i]⟩
  | .op v op => { h with ledger := recordOp config s v op h.ledger }
  | .moveConstruct dst src => { h with ledger := h.ledger.transfer dst src }
  | .moveAssign dst src =>
    if dst = src then h
    else match s.assign dst src with
      | none => h
      | some r => { h with ledger := (r.2.settle dst h.ledger).transfer dst src }
  | .shutdown | .init | .elsewhere _ _ => h

def HandleConfig.run (config : HandleConfig) :
    HandleSystem × HandleLog → HandleAction → Option (HandleSystem × HandleLog) :=
  recorded (HandleSystem.step config) (recordHandles config)

end ShmIpc.Slots
