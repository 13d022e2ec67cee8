import Mathlib.Logic.Function.Basic
import ShmIpc.Library.Transition
import ShmIpc.Protocol

/-!
The doorbell of the guest calls. One host thread alternates `WaitForRequest` and
`ProcessGuestCalls` over all guest slots; every sender of the guest stores its request,
loads the host state of its slot and signals the one request event if it reads that the
host is waiting. The event is auto-reset: signals coalesce, and the wait that returns
clears it. Every access to shared memory is a step of its own, the loops over the slots
included.

How a sender comes by its slot, and what else happens to the state of a slot, is not of
interest here: a sender may take any slot, and any other writer may leave any state but a
published request.
-/

namespace ShmIpc.Slots
open Library

inductive HostState
  | active
  | waiting
  deriving DecidableEq, Repr

namespace WaitStrategy

def kMinSpin : Int := 100

def kMaxSpin : Int := 50000

def kIncStep : Int := 5000

def kDecStep : Int := 1000

def grow (currentLimit : Int) : Int :=
  if currentLimit < kMaxSpin then
    if currentLimit + kIncStep > kMaxSpin then kMaxSpin else currentLimit + kIncStep
  else currentLimit

def shrink (currentLimit : Int) : Int :=
  if currentLimit > kMinSpin then
    if currentLimit - kDecStep < kMinSpin then kMinSpin else currentLimit - kDecStep
  else currentLimit

end WaitStrategy

/-- The part of a guest slot's header the doorbell reads and writes. -/
structure BellSlot where
  state : SlotState
  hostState : HostState
  deriving DecidableEq, Repr

structure BellConfig where
  numGuestSlots : Nat
  /-- Whether `GuestRequestEvent` finds the shared event. -/
  hasEvent : Bool
  spin : Bool
  maxBatchSize : Int

/-- Where the host thread stands. A number is the slot its loop has come to, and
`processed` counts the requests of this `ProcessGuestCalls`. -/
inductive WaiterPc
  | loop
  | waitForRequest
  | spinning (iter : Nat)
  | spinCheck (iter i : Nat)
  | setWaiting (i : Nat)
  | recheck (i : Nat)
  | parked
  | setActive (i : Nat)
  | sleptCheck (i : Nat)
  | lastCheck (i : Nat)
  | processGuestCalls
  | processing (i processed : Nat)
  | claiming (i processed : Nat)
  | handling (i processed : Nat)
  | publishing (i processed : Nat)
  | stopped
  deriving DecidableEq, Repr

inductive SenderPc
  | idle
  | publishing (i : Nat)
  | loadHostState (i : Nat)
  | signalling (i : Nat)
  deriving DecidableEq, Repr

/-- `owner i` is the sender that published on slot `i` last. -/
structure BellSystem (Tid : Type) where
  slots : Nat → BellSlot
  event : Bool
  guestWorkerRunning : Bool
  running : Bool
  currentLimit : Int
  waiter : WaiterPc
  sender : Tid → SenderPc
  owner : Nat → Option Tid

inductive BellAction (Tid : Type)
  | waiter
  | timeout
  | take (t : Tid) (i : Nat)
  | sender (t : Tid)
  | elsewhere (i : Nat) (state : SlotState)
  | wakeWaiter
  | stop
  | shutdown

namespace BellSystem

variable {Tid : Type}

def start (Tid : Type) : BellSystem Tid where
  slots := fun _ => ⟨.free, .active⟩
  event := false
  guestWorkerRunning := true
  running := true
  currentLimit := WaitStrategy.kMaxSpin
  waiter := .loop
  sender := fun _ => .idle
  owner := fun _ => none

def goto (s : BellSystem Tid) (pc : WaiterPc) : BellSystem Tid := { s with waiter := pc }

def setState (s : BellSystem Tid) (i : Nat) (state : SlotState) : BellSystem Tid :=
  { s with slots := Function.update s.slots i { s.slots i with state := state } }

def setHostState (s : BellSystem Tid) (i : Nat) (hostState : HostState) : BellSystem Tid :=
  { s with slots := Function.update s.slots i { s.slots i with hostState := hostState } }

/-- One step of `anyRequestReady`: where the thread goes when slot `i` is ready, when it is
not, and when there is no slot `i`. -/
def anyRequestReady (cfg : BellConfig) (s : BellSystem Tid) (i : Nat)
    (ready next none : WaiterPc) : WaiterPc :=
  if i < cfg.numGuestSlots then
    if (s.slots i).state = .reqReady then ready else next
  else none

/-- `WaitForRequest` as far as the first access to a slot. Without slots or without an
event it only sleeps. -/
def waitForRequest (cfg : BellConfig) : WaiterPc :=
  if cfg.numGuestSlots = 0 then .processGuestCalls
  else if !cfg.hasEvent then .lastCheck 0
  else if !cfg.spin then .setWaiting 0
  else .spinning 0

def waiterStep (cfg : BellConfig) (s : BellSystem Tid) : Option (BellSystem Tid) :=
  match s.waiter with
  | .loop => some (s.goto (if s.guestWorkerRunning then .waitForRequest else .stopped))
  | .waitForRequest => some (s.goto (waitForRequest cfg))
  | .spinning iter =>
    if (iter : Int) < s.currentLimit then some (s.goto (.spinCheck iter 0))
    else some { s.goto (.setWaiting 0) with
      currentLimit := WaitStrategy.shrink s.currentLimit }
  | .spinCheck iter i =>
    if i < cfg.numGuestSlots then
      if (s.slots i).state = .reqReady then
        some { s.goto (.lastCheck 0) with currentLimit := WaitStrategy.grow s.currentLimit }
      else some (s.goto (.spinCheck iter (i + 1)))
    else some (s.goto (.spinning (iter + 1)))
  | .setWaiting i =>
    if i < cfg.numGuestSlots then some ((s.setHostState i .waiting).goto (.setWaiting (i + 1)))
    else some (s.goto (.recheck 0))
  | .recheck i => some (s.goto (s.anyRequestReady cfg i (.setActive 0) (.recheck (i + 1)) .parked))
  | .parked => if s.event then some { s.goto (.setActive 0) with event := false } else none
  | .setActive i =>
    if i < cfg.numGuestSlots then some ((s.setHostState i .active).goto (.setActive (i + 1)))
    else some (s.goto (if cfg.spin then .sleptCheck 0 else .lastCheck 0))
  | .sleptCheck i =>
    some (s.goto (s.anyRequestReady cfg i (.lastCheck 0) (.sleptCheck (i + 1)) (.lastCheck 0)))
  | .lastCheck i =>
    some (s.goto (s.anyRequestReady cfg i .processGuestCalls (.lastCheck (i + 1))
      .processGuestCalls))
  | .processGuestCalls => some (s.goto (if s.running then .processing 0 0 else .loop))
  | .processing i processed =>
    if i < cfg.numGuestSlots then
      if 0 < cfg.maxBatchSize ∧ cfg.maxBatchSize ≤ processed then some (s.goto .loop)
      else if (s.slots i).state = .reqReady then some (s.goto (.claiming i processed))
      else some (s.goto (.processing (i + 1) processed))
    else some (s.goto .loop)
  | .claiming i processed =>
    if (s.slots i).state = .reqReady then
      some ((s.setState i .busy).goto (.handling i processed))
    else some (s.goto (.processing (i + 1) processed))
  | .handling i processed =>
    if (s.slots i).state = .busy then
      some ((s.setState i .done).goto (.publishing i processed))
    else some (s.goto (.processing (i + 1) (processed + 1)))
  | .publishing i processed =>
    if (s.slots i).state = .done then
      some ((s.setState i .respReady).goto (.processing (i + 1) (processed + 1)))
    else some (s.goto (.processing (i + 1) (processed + 1)))
  | .stopped => none

variable [DecidableEq Tid]

def moveSender (s : BellSystem Tid) (t : Tid) (pc : SenderPc) : BellSystem Tid :=
  { s with sender := Function.update s.sender t pc }

/-- The publish and the doorbell of `sendGuestCallInternal` and of `SendWithTimeout`. -/
def senderStep (s : BellSystem Tid) (t : Tid) : Option (BellSystem Tid) :=
  match s.sender t with
  | .idle => none
  | .publishing i =>
    some { (s.setState i .reqReady).moveSender t (.loadHostState i) with
      owner := Function.update s.owner i (some t) }
  | .loadHostState i =>
    some (s.moveSender t (if (s.slots i).hostState = .waiting then .signalling i else .idle))
  | .signalling _ => some { s.moveSender t .idle with event := true }

def step (cfg : BellConfig) (s : BellSystem Tid) : BellAction Tid → Option (BellSystem Tid)
  | .waiter => s.waiterStep cfg
  | .timeout => if s.waiter = .parked then some (s.goto (.setActive 0)) else none
  | .take t i => if s.sender t = .idle then some (s.moveSender t (.publishing i)) else none
  | .sender t => s.senderStep t
  | .elsewhere i state => if state = .reqReady then none else some (s.setState i state)
  | .wakeWaiter => some { s with event := true }
  | .stop => some { s with guestWorkerRunning := false }
  | .shutdown => some { s with running := false }

end BellSystem

end ShmIpc.Slots
