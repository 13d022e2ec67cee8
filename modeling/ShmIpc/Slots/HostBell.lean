import Mathlib.Logic.Function.Basic
import ShmIpc.Slots.GuestWaiter

/-!
The two doorbells of a host slot: the host threads that use it, the guest's worker
goroutine that answers it, the words they wake each other by, and the two auto-reset
events. A caller publishes a request, rings the worker if that one has announced that it is
waiting, and waits for the response: first spinning, then asleep on the response event in
portions of 100 ms until its own time limit. The worker spins for a request, announces
itself and sleeps for at most 100 ms, claims what it finds, runs the handler, publishes
under the publish lock, and rings the caller if that one waits.

Every access to the shared words is a step of its own, in one total order; that some loads
and stores ask for less is left out. So are the words that take no part in waking anybody
(`gen`, `lease`, the other header fields and the buffers): a claim is admitted whenever the
state alone allows it. A spin may end after any number of probes up to the largest window.
-/

namespace ShmIpc.Slots

structure BellLine where
  state : SlotState
  hostState : HostState
  guestState : HostState
  reqEvent : Bool
  respEvent : Bool
  deriving DecidableEq, Repr

/-- The largest spin window, the same on both sides. -/
def maxSpins : Nat := WaitStrategy.kMaxSpin.toNat

/-! ### The caller -/

/-- The next access of a host thread. An `owner` writes its request or reads the response;
`waits` is false in `SendAcquiredAsync`, which leaves the request `pending`. -/
inductive AskerPc
  | away
  | owner
  | setActive (waits : Bool)
  | publish (waits : Bool)
  | loadGuestState (waits : Bool)
  | signal (waits : Bool)
  | pending
  | rearm
  | spinning (i : Nat)
  | announce
  | recheck
  | loopCheck
  | clock
  | parked
  | withdraw
  | lastCheck
  | finishWait
  deriving DecidableEq, Repr

/-- What the calling code decides, the code of the library, the end of a spin, of a wait for
the event and of the caller's patience. -/
inductive AskerMove
  | claim
  | send (waits : Bool)
  | waitForSlot
  | release
  | run
  | sleep
  | expire
  | deadline
  deriving DecidableEq, Repr

def AskerPc.sent (waits : Bool) : AskerPc := if waits then .spinning 0 else .pending

def askerRun (line : BellLine) : AskerPc → Option (BellLine × AskerPc)
  | .away | .owner | .pending => none
  | .setActive waits => some ({ line with hostState := .active }, .publish waits)
  | .publish waits => some ({ line with state := .reqReady }, .loadGuestState waits)
  | .loadGuestState waits =>
    some (line, if line.guestState = .waiting then .signal waits else .sent waits)
  | .signal waits => some ({ line with reqEvent := true }, .sent waits)
  | .rearm => some ({ line with hostState := .active }, .spinning 0)
  | .spinning i =>
    if line.state = .respReady then some (line, .finishWait)
    else if i < maxSpins then some (line, .spinning (i + 1))
    else some (line, .announce)
  | .announce => some ({ line with hostState := .waiting }, .recheck)
  | .recheck => some (line, if line.state = .respReady then .withdraw else .loopCheck)
  | .loopCheck => some (line, if line.state = .respReady then .withdraw else .clock)
  | .clock => some (line, .parked)
  | .parked => if line.respEvent then some ({ line with respEvent := false }, .loopCheck) else none
  | .withdraw => some ({ line with hostState := .active }, .lastCheck)
  | .lastCheck => some (line, if line.state = .respReady then .finishWait else .away)
  | .finishWait => some ({ line with state := .busy }, .owner)

def askerMove (line : BellLine) : AskerPc → AskerMove → Option (BellLine × AskerPc)
  | .away, .claim =>
    if line.state = .busy ∨ line.state = .done then none
    else some ({ line with state := .busy }, .owner)
  | .owner, .send waits => some (line, .setActive waits)
  | .owner, .release => some ({ line with state := .free }, .away)
  | .pending, .waitForSlot => some (line, .rearm)
  | .spinning _, .sleep => some (line, .announce)
  | .parked, .expire => some (line, .loopCheck)
  | .clock, .deadline => some (line, .withdraw)
  | pc, .run => askerRun line pc
  | _, _ => none

inductive AskerGoes (l : BellLine) : AskerPc → AskerMove → BellLine → AskerPc → Prop
  | claim : AskerGoes l .away .claim { l with state := .busy } .owner
  | send (w : Bool) : AskerGoes l .owner (.send w) l (.setActive w)
  | release : AskerGoes l .owner .release { l with state := .free } .away
  | waitForSlot : AskerGoes l .pending .waitForSlot l .rearm
  | setActive (w : Bool) :
      AskerGoes l (.setActive w) .run { l with hostState := .active } (.publish w)
  | publish (w : Bool) :
      AskerGoes l (.publish w) .run { l with state := .reqReady } (.loadGuestState w)
  | guestWaits (w : Bool) (h : l.guestState = .waiting) :
      AskerGoes l (.loadGuestState w) .run l (.signal w)
  | guestActive (w : Bool) (h : l.guestState ≠ .waiting) :
      AskerGoes l (.loadGuestState w) .run l (.sent w)
  | signal (w : Bool) : AskerGoes l (.signal w) .run { l with reqEvent := true } (.sent w)
  | rearm : AskerGoes l .rearm .run { l with hostState := .active } (.spinning 0)
  | spinHit (i : Nat) (h : l.state = .respReady) : AskerGoes l (.spinning i) .run l .finishWait
  | spin (i : Nat) (h : l.state ≠ .respReady) (hi : i < maxSpins) :
      AskerGoes l (.spinning i) .run l (.spinning (i + 1))
  | spun (i : Nat) (move : AskerMove) : AskerGoes l (.spinning i) move l .announce
  | announce : AskerGoes l .announce .run { l with hostState := .waiting } .recheck
  | recheckReady (h : l.state = .respReady) : AskerGoes l .recheck .run l .withdraw
  | recheck (h : l.state ≠ .respReady) : AskerGoes l .recheck .run l .loopCheck
  | loopReady (h : l.state = .respReady) : AskerGoes l .loopCheck .run l .withdraw
  | loopCheck (h : l.state ≠ .respReady) : AskerGoes l .loopCheck .run l .clock
  | clock : AskerGoes l .clock .run l .parked
  | deadline : AskerGoes l .clock .deadline l .withdraw
  | wake (h : l.respEvent = true) :
      AskerGoes l .parked .run { l with respEvent := false } .loopCheck
  | expire : AskerGoes l .parked .expire l .loopCheck
  | withdraw : AskerGoes l .withdraw .run { l with hostState := .active } .lastCheck
  | lastReady (h : l.state = .respReady) : AskerGoes l .lastCheck .run l .finishWait
  | timedOut (h : l.state ≠ .respReady) : AskerGoes l .lastCheck .run l .away
  | finishWait : AskerGoes l .finishWait .run { l with state := .busy } .owner

theorem askerGoes_of_move {line line' : BellLine} {pc pc' : AskerPc} {move : AskerMove}
    (h : askerMove line pc move = some (line', pc')) : AskerGoes line pc move line' pc' := by
  cases pc <;> cases move <;> simp only [askerMove, askerRun] at h <;> repeat' split at h
  all_goals cases h
  all_goals constructor <;> assumption

/-! ### The worker -/

/-- Where the worker goes after an answer: round the loop, out of `workerLoop` after a
shutdown request, or into a new `workerLoopInternal` after a panic. -/
inductive AfterAnswer
  | loop
  | exits
  | restarts
  deriving DecidableEq, Repr

inductive BellWorkerPc
  | workerLoop
  | setActive
  | loop
  | spinning (i : Nat)
  | announce
  | recheck
  | parked
  | woken
  | withdraw
  | lastCheck
  | claim
  | handling
  | recovering
  | recoverCheck
  | lock (next : AfterAnswer)
  | publish (next : AfterAnswer)
  | loadHostState (next : AfterAnswer)
  | signal (next : AfterAnswer)
  | exited
  deriving DecidableEq, Repr

def AfterAnswer.pc : AfterAnswer → BellWorkerPc
  | .loop => .loop
  | .exits => .exited
  | .restarts => .workerLoop

/-- The worker's code, the end of a spin and of a wait for the event, and what the request
and the handler make of it: `run` is an answer of the worker's own or a handler that
returns. -/
inductive BellWorkerMove
  | run
  | sleep
  | expire
  | shutdown
  | panics
  deriving DecidableEq, Repr

def bellWorkerRun (closing : Bool) (line : BellLine) :
    BellWorkerPc → Option (BellLine × BellWorkerPc)
  | .workerLoop => some (line, if closing then .exited else .setActive)
  | .setActive => some ({ line with guestState := .active }, .loop)
  | .loop => some (line, if closing then .exited else .spinning 0)
  | .spinning i =>
    if line.state = .reqReady then some (line, .claim)
    else if i < maxSpins then some (line, .spinning (i + 1))
    else some (line, .announce)
  | .announce => some ({ line with guestState := .waiting }, .recheck)
  | .recheck => some (line, if line.state = .reqReady then .withdraw else .parked)
  | .parked => if line.reqEvent then some ({ line with reqEvent := false }, .woken) else none
  | .woken => some (line, if closing then .lastCheck else .withdraw)
  | .withdraw => some ({ line with guestState := .active }, .lastCheck)
  | .lastCheck => some (line, if line.state = .reqReady then .claim else .loop)
  | .claim =>
    if line.state = .reqReady then some ({ line with state := .guestBusy }, .handling)
    else some (line, .loop)
  | .handling => some (line, .lock .loop)
  | .recovering => some (line, if closing then .workerLoop else .recoverCheck)
  | .recoverCheck => some (line, if line.state = .guestBusy then .lock .restarts else .workerLoop)
  | .lock next =>
    if line.state = .guestBusy then some ({ line with state := .done }, .publish next)
    else some (line, next.pc)
  | .publish next =>
    if line.state = .done then some ({ line with state := .respReady }, .loadHostState next)
    else some (line, next.pc)
  | .loadHostState next => some (line, if line.hostState = .waiting then .signal next else next.pc)
  | .signal next => some ({ line with respEvent := true }, next.pc)
  | .exited => none

def bellWorkerMove (closing : Bool) (line : BellLine) :
    BellWorkerPc → BellWorkerMove → Option (BellLine × BellWorkerPc)
  | .spinning _, .sleep => some (line, .announce)
  | .parked, .expire => some (line, .woken)
  | .handling, .shutdown => some (line, .lock .exits)
  | .handling, .panics => some (line, .recovering)
  | pc, .run => bellWorkerRun closing line pc
  | _, _ => none

inductive BellWorkerGoes (c : Bool) (l : BellLine) :
    BellWorkerPc → BellWorkerMove → BellLine → BellWorkerPc → Prop
  | closed (h : c = true) : BellWorkerGoes c l .workerLoop .run l .exited
  | enters (h : ¬ c = true) : BellWorkerGoes c l .workerLoop .run l .setActive
  | setActive : BellWorkerGoes c l .setActive .run { l with guestState := .active } .loop
  | leaves (h : c = true) : BellWorkerGoes c l .loop .run l .exited
  | loop (h : ¬ c = true) : BellWorkerGoes c l .loop .run l (.spinning 0)
  | spinHit (i : Nat) (h : l.state = .reqReady) : BellWorkerGoes c l (.spinning i) .run l .claim
  | spin (i : Nat) (h : l.state ≠ .reqReady) (hi : i < maxSpins) :
      BellWorkerGoes c l (.spinning i) .run l (.spinning (i + 1))
  | spun (i : Nat) (move : BellWorkerMove) : BellWorkerGoes c l (.spinning i) move l .announce
  | announce : BellWorkerGoes c l .announce .run { l with guestState := .waiting } .recheck
  | recheckReady (h : l.state = .reqReady) : BellWorkerGoes c l .recheck .run l .withdraw
  | recheck (h : l.state ≠ .reqReady) : BellWorkerGoes c l .recheck .run l .parked
  | wake (h : l.reqEvent = true) :
      BellWorkerGoes c l .parked .run { l with reqEvent := false } .woken
  | expire : BellWorkerGoes c l .parked .expire l .woken
  | wokenClosing (h : c = true) : BellWorkerGoes c l .woken .run l .lastCheck
  | woken (h : ¬ c = true) : BellWorkerGoes c l .woken .run l .withdraw
  | withdraw : BellWorkerGoes c l .withdraw .run { l with guestState := .active } .lastCheck
  | lastReady (h : l.state = .reqReady) : BellWorkerGoes c l .lastCheck .run l .claim
  | lastCheck (h : l.state ≠ .reqReady) : BellWorkerGoes c l .lastCheck .run l .loop
  | claim (h : l.state = .reqReady) :
      BellWorkerGoes c l .claim .run { l with state := .guestBusy } .handling
  | claimFails (h : l.state ≠ .reqReady) : BellWorkerGoes c l .claim .run l .loop
  | handled : BellWorkerGoes c l .handling .run l (.lock .loop)
  | shutdown : BellWorkerGoes c l .handling .shutdown l (.lock .exits)
  | panics : BellWorkerGoes c l .handling .panics l .recovering
  | recoverClosing (h : c = true) : BellWorkerGoes c l .recovering .run l .workerLoop
  | recovering (h : ¬ c = true) : BellWorkerGoes c l .recovering .run l .recoverCheck
  | recovered (h : l.state = .guestBusy) : BellWorkerGoes c l .recoverCheck .run l (.lock .restarts)
  | notOurs (h : l.state ≠ .guestBusy) : BellWorkerGoes c l .recoverCheck .run l .workerLoop
  | lock (next : AfterAnswer) (h : l.state = .guestBusy) :
      BellWorkerGoes c l (.lock next) .run { l with state := .done } (.publish next)
  | lockFails (next : AfterAnswer) (h : l.state ≠ .guestBusy) :
      BellWorkerGoes c l (.lock next) .run l next.pc
  | publish (next : AfterAnswer) (h : l.state = .done) :
      BellWorkerGoes c l (.publish next) .run { l with state := .respReady } (.loadHostState next)
  | publishFails (next : AfterAnswer) (h : l.state ≠ .done) :
      BellWorkerGoes c l (.publish next) .run l next.pc
  | hostWaits (next : AfterAnswer) (h : l.hostState = .waiting) :
      BellWorkerGoes c l (.loadHostState next) .run l (.signal next)
  | hostActive (next : AfterAnswer) (h : l.hostState ≠ .waiting) :
      BellWorkerGoes c l (.loadHostState next) .run l next.pc
  | signal (next : AfterAnswer) :
      BellWorkerGoes c l (.signal next) .run { l with respEvent := true } next.pc

theorem bellWorkerGoes_of_move {closing : Bool} {line line' : BellLine} {pc pc' : BellWorkerPc}
    {move : BellWorkerMove} (h : bellWorkerMove closing line pc move = some (line', pc')) :
    BellWorkerGoes closing line pc move line' pc' := by
  cases pc <;> cases move <;> simp only [bellWorkerMove, bellWorkerRun] at h <;>
    repeat' split at h
  all_goals cases h
  all_goals constructor <;> assumption

/-! ### The slot -/

structure HostBell (Tid : Type) where
  line : BellLine
  asker : Tid → AskerPc
  worker : BellWorkerPc
  closing : Bool

inductive HostBellAction (Tid : Type)
  | asker (t : Tid) (move : AskerMove)
  | worker (move : BellWorkerMove)
  | reclaim
  | close

namespace HostBell

variable {Tid : Type}

def start (Tid : Type) : HostBell Tid where
  line := ⟨.free, .active, .active, false, false⟩
  asker := fun _ => .away
  worker := .workerLoop
  closing := false

def step [DecidableEq Tid] (s : HostBell Tid) : HostBellAction Tid → Option (HostBell Tid)
  | .asker t move =>
    (askerMove s.line (s.asker t) move).map fun r =>
      { s with line := r.1, asker := Function.update s.asker t r.2 }
  | .worker move =>
    (bellWorkerMove s.closing s.line s.worker move).map fun r =>
      { s with line := r.1, worker := r.2 }
  | .reclaim => some { s with line := { s.line with state := .free } }
  | .close => some { s with closing := true }

inductive Goes [DecidableEq Tid] (s : HostBell Tid) : HostBellAction Tid → HostBell Tid → Prop
  | asker (t : Tid) (move : AskerMove) (line : BellLine) (pc : AskerPc)
      (h : AskerGoes s.line (s.asker t) move line pc) :
      Goes s (.asker t move) { s with line := line, asker := Function.update s.asker t pc }
  | worker (move : BellWorkerMove) (line : BellLine) (pc : BellWorkerPc)
      (h : BellWorkerGoes s.closing s.line s.worker move line pc) :
      Goes s (.worker move) { s with line := line, worker := pc }
  | reclaim : Goes s .reclaim { s with line := { s.line with state := .free } }
  | close : Goes s .close { s with closing := true }

theorem goes_of_step [DecidableEq Tid] {s s' : HostBell Tid} {a : HostBellAction Tid}
    (h : s.step a = some s') : Goes s a s' := by
  cases a with
  | asker t move =>
    obtain ⟨r, hr, rfl⟩ := Option.map_eq_some_iff.mp h
    exact .asker t move r.1 r.2 (askerGoes_of_move hr)
  | worker move =>
    obtain ⟨r, hr, rfl⟩ := Option.map_eq_some_iff.mp h
    exact .worker move r.1 r.2 (bellWorkerGoes_of_move hr)
  | reclaim => cases h; exact .reclaim
  | close => cases h; exact .close

end HostBell

end ShmIpc.Slots
