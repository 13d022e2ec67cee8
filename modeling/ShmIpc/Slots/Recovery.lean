import ShmIpc.Library.Handshake
import ShmIpc.Slots.Tenancy

/-!
The recovery of an abandoned slot. Whoever owned it never acts again; any number of
threads try to reclaim it once its lease has run out, and any number of threads claim
it when it is free. The log of a run treats the reclaims as takeovers under the
generation handshake: it counts the reclaims that freed the slot and the claims, and
notes for each reclaim how many claims there were at its load of the state and whose
lease it has judged.
-/

namespace ShmIpc.Slots

open Library

variable {Tid : Type}

/-- Claims that leave a slot alone unless it is free. -/
def ClaimRules.freeOnly (rules : ClaimRules) : ClaimRules :=
  { rules with stealable := fun _ => false }

inductive RecoveryPc
  | idle
  | claiming (pc : ClaimPc)
  | reclaiming (pc : ReclaimPc)
  deriving DecidableEq

def RecoveryPc.afterClaim : Progress ClaimPc → RecoveryPc
  | .running pc => .claiming pc
  | .returned _ => .idle

def RecoveryPc.afterReclaim : Progress ReclaimPc → RecoveryPc
  | .running pc => .reclaiming pc
  | .returned _ => .idle

inductive RecoveryMove
  | tryClaim
  | tryReclaim (maxLeaseAge : Nat)
  | advance (now : Nat)
  deriving DecidableEq

/-- One action of a thread. A call begins with its load of the generation. -/
def recoveryStep (rules : ClaimRules) (s : Slot) :
    RecoveryPc → RecoveryMove → Option (Slot × RecoveryPc)
  | .idle, .tryClaim => some (s, .claiming (.loadState s.gen))
  | .idle, .tryReclaim maxLeaseAge => some (s, .reclaiming (.loadState maxLeaseAge s.gen))
  | .claiming pc, .advance now =>
    let r := rules.freeOnly.step now s pc
    some (r.1, .afterClaim r.2)
  | .reclaiming pc, .advance now =>
    let r := reclaimStep now s pc
    some (r.1, .afterReclaim r.2)
  | _, _ => none

structure Recovery (Tid : Type) where
  slot : Slot
  thread : Tid → RecoveryPc

structure Recovery.Initial (s : Recovery Tid) : Prop where
  gen : s.slot.gen < genPeriod
  idle : ∀ t, s.thread t = .idle

/-- The claims are numbered from one; number zero stands for the abandoned owner. -/
structure RecoveryLog (Tid : Type) where
  shake : Handshake Tid
  claims : Nat
  own : Tid → Nat
  leased : Nat
  seen : Tid → Nat
  judged : Tid → Nat

def RecoveryLog.empty : RecoveryLog Tid where
  shake := ⟨0, 0, fun _ => .away⟩
  claims := 0
  own _ := 0
  leased := 0
  seen _ := 0
  judged _ := 0

def snapOf : Stage → Nat
  | .noted snap | .sighted snap _ => snap
  | _ => 0

variable [DecidableEq Tid]

def Recovery.step (rules : ClaimRules) (s : Recovery Tid) (a : Tid × RecoveryMove) :
    Option (Recovery Tid) :=
  (recoveryStep rules s.slot (s.thread a.1) a.2).map fun r =>
    ⟨r.1, Function.update s.thread a.1 r.2⟩

theorem Recovery.step_eq {rules : ClaimRules} {s s' : Recovery Tid} {t : Tid}
    {move : RecoveryMove} (h : s.step rules (t, move) = some s') :
    ∃ slot' pc', recoveryStep rules s.slot (s.thread t) move = some (slot', pc') ∧
      s' = ⟨slot', Function.update s.thread t pc'⟩ := by
  obtain ⟨r, hr, rfl⟩ := Option.map_eq_some_iff.mp h
  exact ⟨r.1, r.2, hr, rfl⟩

def RecoveryLog.land (h : RecoveryLog Tid) (t : Tid) : RecoveryLog Tid :=
  { h with claims := h.claims + 1, own := Function.update h.own t (h.claims + 1) }

/-- A reclaim loads a state that is not free. -/
def RecoveryLog.sight (h : RecoveryLog Tid) (t : Tid) : RecoveryLog Tid :=
  { h with
    shake := h.shake.sight t (snapOf (h.shake.stage t))
    seen := Function.update h.seen t h.claims }

def RecoveryLog.judge (h : RecoveryLog Tid) (t : Tid) : RecoveryLog Tid :=
  { h with judged := Function.update h.judged t h.leased }

def RecoveryLog.recordClaim (h : RecoveryLog Tid) (t : Tid) (s : Slot) : ClaimPc → RecoveryLog Tid
  | .bumpGen => { h with shake := h.shake.tick }
  | .casFree => if s.state = .free then h.land t else h
  | .casGen gen _ => if s.gen = gen then { h with shake := h.shake.tick } else h
  | .casState current => if s.state = current then h.land t else h
  | .storeLease => { h with leased := h.own t }
  | .loadState _ | .loadActiveWait _ _ => h

def RecoveryLog.recordReclaim (h : RecoveryLog Tid) (t : Tid) :
    ReclaimPc → Progress ReclaimPc → RecoveryLog Tid
  | .loadState .., .running _ => h.sight t
  | .loadLease .., .running _ => h.judge t
  | .casGen .., .running _ => { h with shake := h.shake.bump t }
  | .casState _, .returned true => { h with shake := h.shake.land t }
  | _, .running _ => h
  | _, .returned _ => { h with shake := h.shake.leave t }

def recordRecovery (s : Recovery Tid) (a : Tid × RecoveryMove) (_ : Recovery Tid)
    (h : RecoveryLog Tid) : RecoveryLog Tid :=
  match s.thread a.1, a.2 with
  | .idle, .tryReclaim _ => { h with shake := h.shake.note a.1 }
  | .claiming pc, .advance _ => h.recordClaim a.1 s.slot pc
  | .reclaiming pc, .advance now => h.recordReclaim a.1 pc (reclaimStep now s.slot pc).2
  | _, _ => h

def RecoveryPc.Lawful (rules : ClaimRules) : RecoveryPc → Prop
  | .claiming pc => pc.Lawful rules.freeOnly
  | _ => True

/-- A thread with no reclaim under way and no lease to store. -/
def RecoveryPc.uncommitted : RecoveryPc → Bool
  | .idle => true
  | .claiming pc => pc ≠ .storeLease
  | .reclaiming _ => false

/-- The generation with which a reclaim that has loaded the lease will compare. -/
def ReclaimPc.judging : ReclaimPc → Option Nat
  | .readClock _ gen _ _ | .reloadLease gen _ _ | .casGen gen _ => some gen
  | _ => none

/-- What one action of a thread does to the slot and to the log. -/
inductive RecoveryChange (rules : ClaimRules) (s : Slot) (h : RecoveryLog Tid) (t : Tid) :
    RecoveryPc → RecoveryPc → Slot → RecoveryLog Tid → Prop
  | look (pc pc' : RecoveryPc) (hpc : pc.uncommitted = true) (hpc' : pc'.uncommitted = true)
      (hlawful : pc'.Lawful rules) : RecoveryChange rules s h t pc pc' s h
  | tick : RecoveryChange rules s h t (.claiming .bumpGen) (.claiming .casFree) s.bumpGen
      { h with shake := h.shake.tick }
  | claim (hfree : s.state = .free) :
      RecoveryChange rules s h t (.claiming .casFree) (.claiming .storeLease)
        { s with state := rules.claimed } (h.land t)
  | lease (now : Nat) : RecoveryChange rules s h t (.claiming .storeLease) .idle
      { s with lease := now } { h with leased := h.own t }
  | note (maxLeaseAge : Nat) :
      RecoveryChange rules s h t .idle (.reclaiming (.loadState maxLeaseAge s.gen)) s
        { h with shake := h.shake.note t }
  | sight (maxLeaseAge gen : Nat) (hstate : s.state ≠ .free) :
      RecoveryChange rules s h t (.reclaiming (.loadState maxLeaseAge gen))
        (.reclaiming (.loadLease maxLeaseAge gen s.state)) s (h.sight t)
  | judge (maxLeaseAge gen : Nat) (observed : SlotState) :
      RecoveryChange rules s h t (.reclaiming (.loadLease maxLeaseAge gen observed))
        (.reclaiming (.readClock maxLeaseAge gen observed s.lease)) s (h.judge t)
  | check (pc pc' : ReclaimPc) (gen : Nat) (hpc : pc.judging = some gen)
      (hpc' : pc'.judging = some gen) :
      RecoveryChange rules s h t (.reclaiming pc) (.reclaiming pc') s h
  | win (gen : Nat) (observed : SlotState) (hgen : s.gen = gen) :
      RecoveryChange rules s h t (.reclaiming (.casGen gen observed))
        (.reclaiming (.casState observed)) s.bumpGen { h with shake := h.shake.bump t }
  | free (observed : SlotState) (hstate : s.state = observed) :
      RecoveryChange rules s h t (.reclaiming (.casState observed)) .idle
        { s with state := .free } { h with shake := h.shake.land t }
  | giveUp (pc : ReclaimPc) : RecoveryChange rules s h t (.reclaiming pc) .idle s
      { h with shake := h.shake.leave t }

theorem claim_recovers (rules : ClaimRules) (now : Nat) (s : Slot) (h : RecoveryLog Tid) (t : Tid)
    (pc : ClaimPc) (hlawful : pc.Lawful rules.freeOnly) :
    RecoveryChange rules s h t (.claiming pc) (.afterClaim (rules.freeOnly.step now s pc).2)
      (rules.freeOnly.step now s pc).1 (h.recordClaim t s pc) := by
  cases pc with
  | loadState gen =>
    simp only [ClaimRules.step, ClaimRules.freeOnly]
    split
    · exact .look _ _ rfl rfl trivial
    · exact .look _ _ rfl rfl trivial
  | bumpGen => exact .tick
  | casFree =>
    simp only [ClaimRules.step, RecoveryLog.recordClaim]
    split
    case isTrue hfree => exact .claim hfree
    case isFalse _ => exact .look _ _ rfl rfl trivial
  | storeLease => exact .lease now
  | loadActiveWait | casGen | casState => cases hlawful

theorem reclaim_recovers (rules : ClaimRules) (now : Nat) (s : Slot) (h : RecoveryLog Tid)
    (t : Tid) (pc : ReclaimPc) :
    RecoveryChange rules s h t (.reclaiming pc) (.afterReclaim (reclaimStep now s pc).2)
      (reclaimStep now s pc).1 (h.recordReclaim t pc (reclaimStep now s pc).2) := by
  cases pc with
  | loadState maxLeaseAge gen =>
    simp only [reclaimStep]
    split
    case isTrue _ => exact .giveUp _
    case isFalse hstate => exact .sight maxLeaseAge gen hstate
  | loadLease maxLeaseAge gen observed =>
    simp only [reclaimStep]
    split
    · exact .giveUp _
    · exact .judge maxLeaseAge gen observed
  | readClock maxLeaseAge gen observed lease =>
    simp only [reclaimStep]
    split
    · exact .giveUp _
    · exact .check _ _ gen rfl rfl
  | reloadLease gen observed lease =>
    simp only [reclaimStep]
    split
    · exact .check _ _ gen rfl rfl
    · exact .giveUp _
  | casGen gen observed =>
    simp only [reclaimStep]
    split
    case isTrue hgen => exact .win gen observed hgen
    case isFalse _ => exact .giveUp _
  | casState observed =>
    simp only [reclaimStep]
    split
    case isTrue hstate => exact .free observed hstate
    case isFalse _ => exact .giveUp _

theorem RecoveryChange.lawful {rules : ClaimRules} {s s' : Slot} {h h' : RecoveryLog Tid} {t : Tid}
    {pc pc' : RecoveryPc} (hchange : RecoveryChange rules s h t pc pc' s' h') :
    pc'.Lawful rules := by
  cases hchange with
  | look _ _ _ _ hlawful => exact hlawful
  | _ => trivial

theorem RecoveryChange.stage_of_ne {rules : ClaimRules} {s s' : Slot} {h h' : RecoveryLog Tid}
    {t u : Tid} {pc pc' : RecoveryPc} (hchange : RecoveryChange rules s h t pc pc' s' h')
    (hu : u ≠ t) : h'.shake.stage u = h.shake.stage u := by
  cases hchange with
  | look | tick | claim | lease | judge | check => rfl
  | note | sight | win | free | giveUp => exact Function.update_of_ne hu ..

theorem recovery_change {rules : ClaimRules} {s s' : Recovery Tid} {t : Tid}
    {move : RecoveryMove} (h : RecoveryLog Tid) (hlawful : (s.thread t).Lawful rules)
    (hstep : s.step rules (t, move) = some s') :
    ∃ slot' pc', s' = ⟨slot', Function.update s.thread t pc'⟩ ∧
      RecoveryChange rules s.slot h t (s.thread t) pc' slot' (recordRecovery s (t, move) s' h) := by
  obtain ⟨slot', pc', hthread, rfl⟩ := Recovery.step_eq hstep
  refine ⟨slot', pc', rfl, ?_⟩
  simp only [recordRecovery]
  generalize s.thread t = pc at hlawful hthread
  revert hthread hlawful
  fun_cases recoveryStep rules s.slot pc move with
  | case1 => intro _ heq; cases heq; exact .look _ _ rfl rfl trivial
  | case2 maxLeaseAge => intro _ heq; cases heq; exact .note maxLeaseAge
  | case3 pc now r => intro hlawful heq; cases heq; exact claim_recovers rules now _ h t pc hlawful
  | case4 pc now r => intro _ heq; cases heq; exact reclaim_recovers rules now _ h t pc
  | case5 => intro _ heq; cases heq

end ShmIpc.Slots
