import ShmIpc.Slots.Memory

/-!
Taking over a slot: the claim of a slot for a new transaction and the recovery of
a slot whose lease has run out. Both are sequences of single loads, stores and
compare-and-swaps, so each is a program counter with one atomic step; a step
either moves on inside the call or returns from it.
-/

namespace ShmIpc.Slots

inductive Progress (π : Type)
  | running (pc : π)
  | returned (ok : Bool)
  deriving DecidableEq

/-- Where a claim stands: the action it performs next. -/
inductive ClaimPc
  | loadState (genObserved : Nat)
  | bumpGen
  | casFree
  | loadActiveWait (genObserved : Nat) (current : SlotState)
  | casGen (genObserved : Nat) (current : SlotState)
  | casState (current : SlotState)
  | storeLease
  deriving DecidableEq

/-- What distinguishes the claims of the two sides: the state a claimed slot is
put in, and the states a slot without an active waiter may be stolen from. -/
structure ClaimRules where
  claimed : SlotState
  stealable : SlotState → Bool

/-- One atomic step of a claim. The load of the generation that starts the call
is part of its first program counter. -/
def ClaimRules.step (rules : ClaimRules) (now : Nat) (s : Slot) :
    ClaimPc → Slot × Progress ClaimPc
  | .loadState genObserved =>
    if s.state = .free then (s, .running .bumpGen)
    else if rules.stealable s.state then (s, .running (.loadActiveWait genObserved s.state))
    else (s, .returned false)
  | .bumpGen => (s.bumpGen, .running .casFree)
  | .casFree =>
    if s.state = .free then ({ s with state := rules.claimed }, .running .storeLease)
    else (s, .returned false)
  | .loadActiveWait genObserved current =>
    if s.activeWait then (s, .returned false) else (s, .running (.casGen genObserved current))
  | .casGen genObserved current =>
    if s.gen = genObserved then (s.bumpGen, .running (.casState current))
    else (s, .returned false)
  | .casState current =>
    if s.state = current then ({ s with state := rules.claimed }, .running .storeLease)
    else (s, .returned false)
  | .storeLease => ({ s with lease := now }, .returned true)

/-- `SlotAllocator::tryClaimSlot`, on a host slot. -/
def Cpp.tryClaimSlot : ClaimRules where
  claimed := .busy
  stealable st := st = .respReady || st = .reqReady || st = .guestBusy

/-- `tryClaimGuestSlot`, on a guest slot. -/
def Go.tryClaimGuestSlot : ClaimRules where
  claimed := .guestBusy
  stealable st := st = .respReady

/-- A claim that has advanced the generation and not yet tried the state. -/
def ClaimPc.pending : ClaimPc → Bool
  | .casFree | .casState _ => true
  | _ => false

inductive ReclaimPc
  | loadState (maxLeaseAge gen : Nat)
  | loadLease (maxLeaseAge gen : Nat) (observed : SlotState)
  | readClock (maxLeaseAge gen : Nat) (observed : SlotState) (lease : Nat)
  | reloadLease (gen : Nat) (observed : SlotState) (lease : Nat)
  | casGen (gen : Nat) (observed : SlotState)
  | casState (observed : SlotState)
  deriving DecidableEq

/-- One atomic step of `TryReclaimAbandonedSlot`, which is the same on both
sides. The slot index has been checked and the generation loaded. -/
def reclaimStep (now : Nat) (s : Slot) : ReclaimPc → Slot × Progress ReclaimPc
  | .loadState maxLeaseAge gen =>
    if s.state = .free then (s, .returned false)
    else (s, .running (.loadLease maxLeaseAge gen s.state))
  | .loadLease maxLeaseAge gen observed =>
    if s.lease = 0 then (s, .returned false)
    else (s, .running (.readClock maxLeaseAge gen observed s.lease))
  | .readClock maxLeaseAge gen observed lease =>
    if now ≤ lease ∨ now - lease ≤ maxLeaseAge then (s, .returned false)
    else (s, .running (.reloadLease gen observed lease))
  | .reloadLease gen observed lease =>
    if s.lease = lease then (s, .running (.casGen gen observed)) else (s, .returned false)
  | .casGen gen observed =>
    if s.gen = gen then (s.bumpGen, .running (.casState observed)) else (s, .returned false)
  | .casState observed =>
    if s.state = observed then ({ s with state := .free }, .returned true)
    else (s, .returned false)

end ShmIpc.Slots
