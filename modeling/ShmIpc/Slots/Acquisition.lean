import ShmIpc.Library.Residues
import ShmIpc.Library.Transition
import ShmIpc.Slots.Claim

/-!
Acquiring a slot out of a pool. A call takes a start from a shared counter and tries
the slots in turn until one lets itself be claimed; `sendGuestCallInternal` sweeps
again, with a pass over abandoned slots in between if that is switched on, until its
deadline. Other threads and the peer may change slots, counter and setting between
any two steps.

The start differs between the two sides. C++ reduces the counter to a slot number
before it adds the round; Go adds the round to the counter and reduces the sum, after
the sum has wrapped in 32 bits.
-/

namespace ShmIpc.Slots

open Library

def counterPeriod : Nat := 2 ^ 32

/-- What distinguishes the acquiring calls: how they claim, the part of the slots they
acquire from, what they make of the counter's value, the slot they try in a round,
and whether they sweep again. -/
structure AcquireRules where
  claim : ClaimRules
  first : Nat
  count : Nat
  start : Nat → Nat
  turn : Nat → Nat → Nat
  retries : Bool

def AcquireRules.visit (rules : AcquireRules) (start j : Nat) : Nat :=
  rules.first + rules.turn start j

/-- The slots a full sweep tries, in order, if it finds the counter at this value. -/
def AcquireRules.sweep (rules : AcquireRules) (counter : Nat) : List Nat :=
  (List.range rules.count).map (rules.visit (rules.start counter))

def AcquireRules.slots (rules : AcquireRules) : List Nat :=
  (List.range rules.count).map (rules.first + ·)

/-- `atomic.AddUint32` returns the new value. -/
def Go.sweepStart (nextGuestSlot : Nat) : Nat := (nextGuestSlot + 1) % counterPeriod

/-- `(uint32(j)+offset)%uint32(numGuest)`. -/
def Go.sweepTurn (numGuest offset j : Nat) : Nat := (j + offset) % counterPeriod % numGuest

def Go.acquireGuestSlot (numSlots numGuestSlots : Nat) : AcquireRules where
  claim := Go.tryClaimGuestSlot
  first := numSlots
  count := numGuestSlots
  start := Go.sweepStart
  turn := Go.sweepTurn numGuestSlots
  retries := false

/-- The acquisition in `sendGuestCallInternal`. -/
def Go.sendGuestCallInternal (numSlots numGuestSlots : Nat) : AcquireRules where
  claim := Go.tryClaimGuestSlot
  first := numSlots
  count := numGuestSlots
  start := Go.sweepStart
  turn := Go.sweepTurn numGuestSlots
  retries := true

/-- `fetch_add` returns the old value. -/
def Cpp.tryAcquireSlot (numSlots : Nat) : AcquireRules where
  claim := Cpp.tryClaimSlot
  first := 0
  count := numSlots
  start nextSlot := nextSlot % numSlots
  turn start n := (start + n) % counterPeriod % numSlots
  retries := false

inductive AcquireResult
  | slot (i : Nat)
  | noSlots
  | stopped
  | closing
  | busy
  deriving DecidableEq

/-- The next action of an acquiring call. `round`, `reclaimRound` and `rescanRound` are
the tests of its three loops. -/
inductive AcquirePc
  | enter
  | takeStart
  | round (start j : Nat)
  | claiming (start j : Nat) (pc : ClaimPc)
  | missed
  | reclaimRound (j : Nat) (reclaimed : Bool)
  | reclaiming (j : Nat) (reclaimed : Bool) (pc : ReclaimPc)
  | rescanRound (j : Nat)
  | rescanning (j : Nat) (pc : ClaimPc)
  | pause
  | returned (result : AcquireResult)
  deriving DecidableEq

/-- The words the calls share, and where this one stands. -/
structure Acquisition where
  pool : Nat → Slot
  counter : Nat
  autoReclaimTimeout : Int
  pc : AcquirePc

inductive AcquireAction
  | advance (now : Nat)
  | stopped
  | closing
  | expire
  | retry
  | elsewhere (pool : Nat → Slot) (counter : Nat) (autoReclaimTimeout : Int)

def AcquirePc.afterClaim (i : Nat) (next : AcquirePc) (running : ClaimPc → AcquirePc) :
    Progress ClaimPc → AcquirePc
  | .running pc => running pc
  | .returned true => .returned (.slot i)
  | .returned false => next

def AcquirePc.afterReclaim (j : Nat) (reclaimed : Bool) : Progress ReclaimPc → AcquirePc
  | .running pc => .reclaiming j reclaimed pc
  | .returned ok => .reclaimRound (j + 1) (reclaimed || ok)

namespace Acquisition

def setSlot (s : Acquisition) (i : Nat) (slot : Slot) (pc : AcquirePc) : Acquisition :=
  { s with pool := Function.update s.pool i slot, pc := pc }

/-- The next step of the call itself, unless it has returned or waits for its deadline. -/
def advance (rules : AcquireRules) (now : Nat) (s : Acquisition) : Option Acquisition :=
  match s.pc with
  | .enter =>
    some { s with pc := if rules.count = 0 then .returned .noSlots else .takeStart }
  | .takeStart =>
    some { s with
      counter := (s.counter + 1) % counterPeriod
      pc := .round (rules.start s.counter) 0 }
  | .round start j =>
    some { s with
      pc := if j < rules.count then
          .claiming start j (.loadState (s.pool (rules.visit start j)).gen)
        else .missed }
  | .claiming start j pc =>
    let i := rules.visit start j
    let r := rules.claim.step now (s.pool i) pc
    some (s.setSlot i r.1 (.afterClaim i (.round start (j + 1)) (.claiming start j) r.2))
  | .missed =>
    some { s with
      pc := if rules.retries then
          if 0 < s.autoReclaimTimeout then .reclaimRound 0 false else .pause
        else .returned .busy }
  | .reclaimRound j reclaimed =>
    some { s with
      pc := if j < rules.count then .reclaiming j reclaimed
          (.loadState s.autoReclaimTimeout.toNat (s.pool (rules.first + j)).gen)
        else if reclaimed then .rescanRound 0
        else .pause }
  | .reclaiming j reclaimed pc =>
    let i := rules.first + j
    let r := reclaimStep now (s.pool i) pc
    some (s.setSlot i r.1 (.afterReclaim j reclaimed r.2))
  | .rescanRound j =>
    some { s with
      pc := if j < rules.count then .rescanning j (.loadState (s.pool (rules.first + j)).gen)
        else .pause }
  | .rescanning j pc =>
    let i := rules.first + j
    let r := rules.claim.step now (s.pool i) pc
    some (s.setSlot i r.1 (.afterClaim i (.rescanRound (j + 1)) (.rescanning j) r.2))
  | .pause | .returned _ => none

def step (rules : AcquireRules) (s : Acquisition) : AcquireAction → Option Acquisition
  | .advance now => s.advance rules now
  | .stopped => if s.pc = .enter then some { s with pc := .returned .stopped } else none
  | .closing => if s.pc = .pause then some { s with pc := .returned .closing } else none
  | .expire => if s.pc = .pause then some { s with pc := .returned .busy } else none
  | .retry => if s.pc = .pause then some { s with pc := .takeStart } else none
  | .elsewhere pool counter autoReclaimTimeout =>
    if counter < counterPeriod then some { s with pool, counter, autoReclaimTimeout } else none

structure Initial (s : Acquisition) : Prop where
  counter : s.counter < counterPeriod
  pc : s.pc = .enter

end Acquisition

/-- The latest sweep: the counter's value when it began, and the slots whose claim has
been refused in it. -/
structure SweepLog where
  counter : Nat
  refused : List Nat
  deriving DecidableEq

def recordAdvance (rules : AcquireRules) (now : Nat) (s : Acquisition) (h : SweepLog) : SweepLog :=
  match s.pc with
  | .takeStart => ⟨s.counter, []⟩
  | .claiming start j pc =>
    if (rules.claim.step now (s.pool (rules.visit start j)) pc).2 = .returned false then
      { h with refused := h.refused ++ [rules.visit start j] }
    else h
  | _ => h

def recordSweep (rules : AcquireRules) (s : Acquisition) (a : AcquireAction) (_ : Acquisition)
    (h : SweepLog) : SweepLog :=
  match a with
  | .advance now => recordAdvance rules now s h
  | _ => h

def AcquireRules.run (rules : AcquireRules) :
    Acquisition × SweepLog → AcquireAction → Option (Acquisition × SweepLog) :=
  recorded (Acquisition.step rules) (recordSweep rules)

/-- What is recorded where the call stands: the rounds behind it inside a sweep, all of
them after one. -/
def Swept (rules : AcquireRules) (h : SweepLog) : AcquirePc → Prop
  | .round start j =>
    j ≤ rules.count ∧ start = rules.start h.counter ∧
      h.refused = (List.range j).map (rules.visit start)
  | .claiming start j _ =>
    j < rules.count ∧ start = rules.start h.counter ∧
      h.refused = (List.range j).map (rules.visit start)
  | .missed | .reclaimRound _ _ | .reclaiming _ _ _ | .rescanRound _ | .rescanning _ _
  | .pause | .returned .busy => h.refused = rules.sweep h.counter
  | .enter | .takeStart | .returned _ => True

structure SweepInvariant (rules : AcquireRules) (p : Acquisition × SweepLog) : Prop where
  counter : p.1.counter < counterPeriod
  start : p.2.counter < counterPeriod
  swept : Swept rules p.2 p.1.pc

section Invariant

variable {rules : AcquireRules} {h : SweepLog}

theorem swept_afterReclaim {j : Nat} {reclaimed : Bool} (hall : h.refused = rules.sweep h.counter)
    (r : Progress ReclaimPc) : Swept rules h (.afterReclaim j reclaimed r) := by
  cases r with
  | running pc | returned ok => exact hall

theorem swept_afterRescan {i j : Nat} (hall : h.refused = rules.sweep h.counter)
    (r : Progress ClaimPc) :
    Swept rules h (.afterClaim i (.rescanRound (j + 1)) (.rescanning j) r) := by
  cases r with
  | running pc => exact hall
  | returned ok =>
    cases ok with
    | true => trivial
    | false => exact hall

theorem swept_afterClaim {start j : Nat} {pc : ClaimPc} (hin : Swept rules h (.claiming start j pc))
    (r : Progress ClaimPc) :
    Swept rules
      (if r = .returned false then { h with refused := h.refused ++ [rules.visit start j] } else h)
      (.afterClaim (rules.visit start j) (.round start (j + 1)) (.claiming start j) r) := by
  obtain ⟨hlt, hstart, hrefused⟩ := hin
  cases r with
  | running pc' => exact ⟨hlt, hstart, hrefused⟩
  | returned ok =>
    cases ok with
    | true => trivial
    | false =>
      refine ⟨hlt, hstart, ?_⟩
      rw [if_pos rfl, List.range_succ, List.map_append, ← hrefused]
      rfl

theorem recordAdvance_counter_lt (s : Acquisition) (now : Nat)
    (hs : s.counter < counterPeriod) (hh : h.counter < counterPeriod) :
    (recordAdvance rules now s h).counter < counterPeriod := by
  unfold recordAdvance
  split
  · exact hs
  · split
    · exact hh
    · exact hh
  · exact hh

theorem advance_counter_lt {s s' : Acquisition} {now : Nat} (hs : s.counter < counterPeriod)
    (hstep : s.advance rules now = some s') : s'.counter < counterPeriod := by
  unfold Acquisition.advance at hstep
  split at hstep
  case h_2 =>
    cases hstep
    exact Nat.mod_lt _ (by decide)
  all_goals
    cases hstep
    try exact hs

theorem swept_advance {s s' : Acquisition} {now : Nat} (hin : Swept rules h s.pc)
    (hstep : s.advance rules now = some s') :
    Swept rules (recordAdvance rules now s h) s'.pc := by
  obtain ⟨pool, counter, age, pc⟩ := s
  cases pc with
  | enter =>
    cases hstep
    show Swept rules h (if rules.count = 0 then _ else _)
    split
    · trivial
    · trivial
  | takeStart =>
    cases hstep
    exact ⟨Nat.zero_le _, rfl, rfl⟩
  | round start j =>
    cases hstep
    obtain ⟨hle, hstart, hrefused⟩ := hin
    show Swept rules h (if j < rules.count then _ else _)
    split
    case isTrue hlt => exact ⟨hlt, hstart, hrefused⟩
    case isFalse hge =>
      show h.refused = rules.sweep h.counter
      rw [hrefused, hstart, Nat.le_antisymm hle (Nat.le_of_not_lt hge)]
      rfl
  | claiming start j pc =>
    cases hstep
    exact swept_afterClaim hin _
  | missed =>
    cases hstep
    show Swept rules h (if rules.retries then if 0 < age then _ else _ else _)
    split
    · split
      · exact hin
      · exact hin
    · exact hin
  | reclaimRound j reclaimed =>
    cases hstep
    show Swept rules h (if j < rules.count then _ else if reclaimed then _ else _)
    split
    · exact hin
    · split
      · exact hin
      · exact hin
  | reclaiming j reclaimed pc =>
    cases hstep
    exact swept_afterReclaim hin _
  | rescanRound j =>
    cases hstep
    show Swept rules h (if j < rules.count then _ else _)
    split
    · exact hin
    · exact hin
  | rescanning j pc =>
    cases hstep
    exact swept_afterRescan hin _
  | pause | returned result => cases hstep

theorem sweepInvariant_step {s s' : Acquisition} {h : SweepLog} {a : AcquireAction}
    (hinv : SweepInvariant rules (s, h)) (hstep : s.step rules a = some s') :
    SweepInvariant rules (s', recordSweep rules s a s' h) := by
  obtain ⟨hcounter, hstart, hswept⟩ := hinv
  simp only at hcounter hstart hswept
  cases a with
  | advance now =>
    exact ⟨advance_counter_lt hcounter hstep, recordAdvance_counter_lt s now hcounter hstart,
      swept_advance hswept hstep⟩
  | stopped | closing | retry =>
    simp only [Acquisition.step] at hstep
    split at hstep
    · cases hstep
      exact ⟨hcounter, hstart, trivial⟩
    · cases hstep
  | expire =>
    simp only [Acquisition.step] at hstep
    split at hstep
    case isTrue hpause =>
      cases hstep
      rw [hpause] at hswept
      exact ⟨hcounter, hstart, hswept⟩
    case isFalse => cases hstep
  | elsewhere pool counter age =>
    simp only [Acquisition.step] at hstep
    split at hstep
    case isTrue hlt =>
      cases hstep
      exact ⟨hlt, hstart, hswept⟩
    case isFalse => cases hstep

theorem refused_of_busy {s₀ s : Acquisition} {h₀ : SweepLog} (hinit : s₀.Initial)
    (hh : h₀.counter < counterPeriod)
    (hrun : Reachable rules.run (fun _ _ => True) (s₀, h₀) (s, h))
    (hbusy : s.pc = .returned .busy) :
    h.counter < counterPeriod ∧ h.refused = rules.sweep h.counter := by
  have hinv : SweepInvariant rules (s, h) := by
    refine hrun.recorded_invariant (fun s h => SweepInvariant rules (s, h)) ?_
      (fun _ _ _ _ hp _ hstep => sweepInvariant_step hp hstep)
    refine ⟨hinit.counter, hh, ?_⟩
    rw [hinit.pc]
    trivial
  have hswept := hinv.swept
  rw [hbusy] at hswept
  exact ⟨hinv.start, hswept⟩

end Invariant

section Coverage

variable {n : Nat}

/-- The sum of round and start does not wrap before the sweep is over, or its wrap is
invisible modulo the number of slots. -/
def Unbroken (n counter : Nat) : Prop :=
  Go.sweepStart counter + n ≤ counterPeriod ∨ n ∣ counterPeriod

instance (n counter : Nat) : Decidable (Unbroken n counter) :=
  inferInstanceAs (Decidable (_ ∨ _))

theorem sweep_perm_slots_iff {rules : AcquireRules} (counter : Nat) :
    (rules.sweep counter).Perm rules.slots ↔
      ((List.range rules.count).map (rules.turn (rules.start counter))).Perm
        (List.range rules.count) := by
  have hsweep : rules.sweep counter = ((List.range rules.count).map
      (rules.turn (rules.start counter))).map (rules.first + ·) := by
    rw [List.map_map]
    rfl
  rw [hsweep]
  exact List.map_perm_map_iff fun i j hij => Nat.add_left_cancel hij

theorem go_sweep_iff (hn : 1 ≤ n) (hmax : n ≤ 100000) (counter : Nat) :
    ((List.range n).map (Go.sweepTurn n (Go.sweepStart counter))).Perm (List.range n) ↔
      Unbroken n counter :=
  wrapped_perm_range_iff hn (Nat.le_trans hmax (by decide)) (Nat.mod_lt _ (by decide))

theorem cpp_sweep (hn : 1 ≤ n) (hmax : n ≤ 100000) (counter : Nat) :
    ((Cpp.tryAcquireSlot n).sweep counter).Perm (Cpp.tryAcquireSlot n).slots := by
  have hlt : counter % n < n := Nat.mod_lt _ hn
  have hperiod : 200000 ≤ counterPeriod := by decide
  rw [sweep_perm_slots_iff]
  show ((List.range n).map fun j => (counter % n + j) % counterPeriod % n).Perm (List.range n)
  simp only [Nat.add_comm (counter % n)]
  rw [wrapped_perm_range_iff hn (by omega) (by omega)]
  left
  omega

end Coverage

/-- A sweep of the two Go calls tries every guest slot exactly once if, and only if, it
is unbroken; then, and only then, does a report that all guest slots are busy follow a
refusal by each of them. In C++ this holds for every value of the counter. -/
theorem sweeps_cover_iff (numSlots n : Nat) (hn : 1 ≤ n) (hmax : n ≤ 100000) :
    (∀ rules ∈ [Go.acquireGuestSlot numSlots n, Go.sendGuestCallInternal numSlots n],
      (∀ counter, counter < counterPeriod →
        ((rules.sweep counter).Perm rules.slots ↔ Unbroken n counter)) ∧
      ∀ s₀ : Acquisition, s₀.Initial → ∀ s h,
        Reachable rules.run (fun _ _ => True) (s₀, ⟨0, []⟩) (s, h) → s.pc = .returned .busy →
        (h.refused.Perm rules.slots ↔ Unbroken n h.counter)) ∧
    (∀ counter, counter < counterPeriod →
      ((Cpp.tryAcquireSlot n).sweep counter).Perm (Cpp.tryAcquireSlot n).slots) ∧
    ∀ s₀ : Acquisition, s₀.Initial → ∀ s h,
      Reachable (Cpp.tryAcquireSlot n).run (fun _ _ => True) (s₀, ⟨0, []⟩) (s, h) →
      s.pc = .returned .busy → h.refused.Perm (Cpp.tryAcquireSlot n).slots := by
  have hgo : ∀ rules ∈ [Go.acquireGuestSlot numSlots n, Go.sendGuestCallInternal numSlots n],
      ∀ counter, (rules.sweep counter).Perm rules.slots ↔ Unbroken n counter := by
    intro rules hrules counter
    rw [sweep_perm_slots_iff]
    simp only [List.mem_cons, List.not_mem_nil, or_false] at hrules
    rcases hrules with rfl | rfl
    · exact go_sweep_iff hn hmax counter
    · exact go_sweep_iff hn hmax counter
  refine ⟨?_, fun counter _ => cpp_sweep hn hmax counter, ?_⟩
  · intro rules hrules
    refine ⟨fun counter _ => hgo rules hrules counter, ?_⟩
    intro s₀ hinit s h hrun hbusy
    obtain ⟨-, hrefused⟩ := refused_of_busy hinit (by decide) hrun hbusy
    rw [hrefused]
    exact hgo rules hrules h.counter
  · intro s₀ hinit s h hrun hbusy
    obtain ⟨-, hrefused⟩ := refused_of_busy hinit (by decide) hrun hbusy
    rw [hrefused]
    exact cpp_sweep hn hmax h.counter

theorem sweeps_cover_three :
    ((Go.acquireGuestSlot 1 3).sweep 7).Perm [1, 2, 3] ∧
    ¬ ((Go.sendGuestCallInternal 1 3).sweep (2 ^ 32 - 2)).Perm [1, 2, 3] ∧
    ((Cpp.tryAcquireSlot 3).sweep (2 ^ 32 - 2)).Perm [0, 1, 2] := by
  have hcover := sweeps_cover_iff 1 3 (by decide) (by decide)
  refine ⟨?_, ?_, hcover.2.1 _ (by decide)⟩
  · exact ((hcover.1 _ (by simp)).1 7 (by decide)).mpr (by decide)
  · intro hperm
    exact absurd (((hcover.1 _ (by simp)).1 (2 ^ 32 - 2) (by decide)).mp hperm) (by decide)

/-- Three guest slots, the last of them free and nobody else around. -/
def lastFree : Acquisition where
  pool i :=
    { state := if i = 3 then .free else .guestBusy
      gen := 0
      lease := 0
      msgSeq := 0
      reqSize := 0
      respSize := 0
      msgType := .normal
      reqBuffer := []
      respBuffer := []
      activeWait := false
      nextSeq := 0 }
  counter := 2 ^ 32 - 2
  autoReclaimTimeout := 0
  pc := .enter

/-- `AcquireGuestSlot` reports a busy pool without having tried the free slot: the sum
wraps after the first round, and the first slot is tried twice. -/
theorem free_slot_not_tried :
    lastFree.Initial ∧ ∃ s h,
      exec (Go.acquireGuestSlot 1 3).run (lastFree, ⟨0, []⟩) (List.replicate 10 (.advance 0)) =
        some (s, h) ∧
      s.pc = .returned .busy ∧ (s.pool 3).state = .free ∧
      3 ∈ (Go.acquireGuestSlot 1 3).slots ∧ h.refused = [1, 1, 2] :=
  ⟨⟨by decide, rfl⟩, _, _, rfl, by decide, by decide, by decide, by decide⟩

end ShmIpc.Slots
