import ShmIpc.Library.MachineInt

/-!
The guest's adaptive wait for a value of a slot's state word, in its two forms: `Wait`,
which probes a condition one call at a time, and `WaitState`, which hands bursts of
probes to an assembly routine. The word changes under the waiter, so a wait is given the
value that each of its probes reads. Neither form does anything else that others can see
before it sleeps, the yields to the scheduler apart, which are left out here, as are the
benchmark counters.
-/

namespace ShmIpc.Slots.Go

open Library

def waitStrategyMinSpin : Int := 100

def waitStrategyMaxSpin : Int := 50000

def waitStrategyIncStep : Int := 5000

def waitStrategyDecStep : Int := 1000

/-- The longest burst of `WaitState`. -/
def waitStrategyAsmChunk : Nat := 4096

/-- What the waiter reads: at each probe, and after the sleep. -/
structure Observed where
  probe : Nat → UInt32
  afterSleep : UInt32

/-- What a wait does: the probes it made before it slept or returned, whether it ran the
sleep action, its result, and the limit it leaves. -/
structure Waited where
  probes : Nat
  slept : Bool
  ready : Bool
  currentLimit : Int
  deriving DecidableEq

/-- The limit after a wait that ran with `cur`, unless it stays as it is. -/
def adapted (hit : Bool) (cur : Int) : Option Int :=
  if hit then
    if cur ≥ waitStrategyMaxSpin then none
    else
      let newLimit := int32 (cur + waitStrategyIncStep)
      some (if newLimit > waitStrategyMaxSpin then waitStrategyMaxSpin else newLimit)
  else
    if cur ≤ waitStrategyMinSpin then none
    else
      let newLimit := int32 (cur - waitStrategyDecStep)
      some (if newLimit < waitStrategyMinSpin then waitStrategyMinSpin else newLimit)

/-- `recordOutcome` for a single waiter. A swap that fails is tried once more from the
value it found, which nobody changes. -/
def recordOutcome (hit : Bool) (limit currentLimit : Int) : Int :=
  match adapted hit limit with
  | none => currentLimit
  | some newLimit =>
    if currentLimit = limit then newLimit else (adapted hit currentLimit).getD currentLimit

/-- The loop of `Wait`: up to `remaining` more probes after those already made. -/
def waitLoop (probe : Nat → UInt32) (want : UInt32) : (remaining probes : Nat) → Nat × Bool
  | 0, probes => (probes, false)
  | remaining + 1, probes =>
    if probe probes = want then (probes + 1, true)
    else waitLoop probe want remaining (probes + 1)

/-- `Wait` with the condition that the state word equals `want`. -/
def wait (want : UInt32) (seen : Observed) (currentLimit : Int) : Waited :=
  let limit := currentLimit
  let r := waitLoop seen.probe want limit.toNat 0
  if r.2 then ⟨r.1, false, true, recordOutcome true (int32 limit) currentLimit⟩
  else
    let currentLimit := recordOutcome false (int32 limit) currentLimit
    let ready := if seen.afterSleep = want then true else r.2
    ⟨r.1, true, ready, currentLimit⟩

structure Burst where
  iters : Nat
  ok : Bool
  probes : Nat
  deriving DecidableEq

/-- The loop of `spinUntilEq32`, which tests its budget after the probe; `iters` is the
register that counts the pauses. -/
def spinLoop (probe : Nat → UInt32) (want : UInt32) (max iters probes : Nat) : Burst :=
  if probe probes = want then ⟨iters, true, probes + 1⟩
  else if iters + 1 < max then spinLoop probe want max (iters + 1) (probes + 1)
  else ⟨iters + 1, false, probes + 1⟩
termination_by max - iters

/-- `spinUntilEq32`. The guard at its entry keeps a budget of zero from being spent. -/
def spinUntilEq32 (probe : Nat → UInt32) (want : UInt32) (max probes : Nat) : Burst :=
  if max = 0 then ⟨0, false, probes⟩ else spinLoop probe want max 0 probes

section Probes

variable {probe : Nat → UInt32} {want : UInt32}

/-- A burst makes the probes that `Wait` would make with its budget, and has spent all of
it if none of them succeeds. -/
structure Burst.Covers (probe : Nat → UInt32) (want : UInt32) (budget before : Nat)
    (b : Burst) (spent : Nat) : Prop where
  probes : b.probes = (waitLoop probe want budget before).1
  ok : b.ok = (waitLoop probe want budget before).2
  iters : b.ok = false → b.iters = spent

theorem spinLoop_covers {max iters : Nat} (probes : Nat) (h : iters < max) :
    (spinLoop probe want max iters probes).Covers probe want (max - iters) probes max := by
  fun_induction spinLoop probe want max iters probes with
  | case1 iters probes heq =>
    rw [show max - iters = (max - iters - 1) + 1 by omega]
    refine ⟨?_, ?_, by intro hfalse; cases hfalse⟩
    · rw [waitLoop, if_pos heq]
    · rw [waitLoop, if_pos heq]
  | case2 iters probes hne hlt ih =>
    obtain ⟨hprobes, hok, hiters⟩ := ih hlt
    rw [show max - iters = (max - (iters + 1)) + 1 by omega]
    refine ⟨?_, ?_, hiters⟩
    · rw [waitLoop, if_neg hne, hprobes]
    · rw [waitLoop, if_neg hne, hok]
  | case3 iters probes hne hlast =>
    rw [show max - iters = 0 + 1 by omega]
    refine ⟨?_, ?_, fun _ => by show iters + 1 = max; omega⟩
    · rw [waitLoop, if_neg hne, waitLoop]
    · rw [waitLoop, if_neg hne, waitLoop]

theorem spinUntilEq32_covers (max probes : Nat) :
    (spinUntilEq32 probe want max probes).Covers probe want max probes max := by
  unfold spinUntilEq32
  split
  case isTrue hzero =>
    subst hzero
    exact ⟨rfl, rfl, fun _ => rfl⟩
  case isFalse hpos => exact spinLoop_covers probes (Nat.pos_of_ne_zero hpos)

end Probes

/-- The budget of the next burst. -/
def burstBudget (limit totalIters : Nat) : Nat :=
  if limit - totalIters > waitStrategyAsmChunk then waitStrategyAsmChunk else limit - totalIters

theorem burstBudget_bounds {limit totalIters : Nat} (h : totalIters < limit) :
    0 < burstBudget limit totalIters ∧ totalIters + burstBudget limit totalIters ≤ limit := by
  unfold burstBudget waitStrategyAsmChunk
  split
  · omega
  · omega

/-- The bursts of `WaitState`: the probes made, and whether one of them succeeded. -/
def burstLoop (probe : Nat → UInt32) (want : UInt32) (limit totalIters probes : Nat) :
    Nat × Bool :=
  if totalIters < limit then
    let burst := spinUntilEq32 probe want (burstBudget limit totalIters) probes
    if burst.ok then (burst.probes, true)
    else burstLoop probe want limit (totalIters + burst.iters) burst.probes
  else (probes, false)
termination_by limit - totalIters
decreasing_by
  have hmore : totalIters < limit := by assumption
  have hiters := (spinUntilEq32_covers (burstBudget limit totalIters) probes).iters
    (Bool.eq_false_iff.mpr (by assumption))
  have hbudget := burstBudget_bounds hmore
  rw [hiters]
  omega

/-- Conversion of an `int32` to `uintptr`. -/
def uintptr (n : Int) : Nat := (n % 2 ^ 64).toNat

def waitState (want : UInt32) (seen : Observed) (currentLimit : Int) : Waited :=
  let limit := uintptr currentLimit
  let r := burstLoop seen.probe want limit 0 0
  if r.2 then ⟨r.1, false, true, recordOutcome true (int32 limit) currentLimit⟩
  else
    let currentLimit := recordOutcome false (int32 limit) currentLimit
    if seen.afterSleep = want then ⟨r.1, true, true, currentLimit⟩
    else ⟨r.1, true, false, currentLimit⟩

section Refinement

variable {probe : Nat → UInt32} {want : UInt32}

theorem waitLoop_add (first rest probes : Nat) :
    waitLoop probe want (first + rest) probes =
      if (waitLoop probe want first probes).2 then waitLoop probe want first probes
      else waitLoop probe want rest (waitLoop probe want first probes).1 := by
  induction first generalizing probes with
  | zero => rw [Nat.zero_add]; rfl
  | succ first ih =>
    rw [show first + 1 + rest = (first + rest) + 1 by omega, waitLoop, waitLoop]
    by_cases heq : probe probes = want
    · rw [if_pos heq, if_pos heq]
      rfl
    · rw [if_neg heq, if_neg heq]
      exact ih (probes + 1)

theorem burstLoop_eq (limit totalIters probes : Nat) :
    burstLoop probe want limit totalIters probes =
      waitLoop probe want (limit - totalIters) probes := by
  fun_induction burstLoop probe want limit totalIters probes with
  | case1 totalIters probes hmore burst hok =>
    obtain ⟨-, hbudget⟩ := burstBudget_bounds hmore
    have hcovers : burst.Covers probe want (burstBudget limit totalIters) probes _ :=
      spinUntilEq32_covers _ probes
    rw [show limit - totalIters = burstBudget limit totalIters +
      (limit - totalIters - burstBudget limit totalIters) by omega, waitLoop_add,
      ← hcovers.ok, if_pos hok]
    exact Prod.ext hcovers.probes (hok ▸ hcovers.ok)
  | case2 totalIters probes hmore burst hok ih =>
    obtain ⟨-, hbudget⟩ := burstBudget_bounds hmore
    have hcovers : burst.Covers probe want (burstBudget limit totalIters) probes _ :=
      spinUntilEq32_covers _ probes
    have hiters := hcovers.iters (Bool.eq_false_iff.mpr hok)
    rw [show limit - totalIters = burstBudget limit totalIters +
      (limit - (totalIters + burst.iters)) by omega, waitLoop_add,
      ← hcovers.ok, if_neg hok, ← hcovers.probes]
    exact ih
  | case3 totalIters probes hdone =>
    rw [Nat.sub_eq_zero_of_le (Nat.le_of_not_lt hdone)]
    rfl

theorem waitState_eq_wait (want : UInt32) (seen : Observed) {currentLimit : Int}
    (h : 0 ≤ currentLimit) (h32 : currentLimit < 2 ^ 31) :
    waitState want seen currentLimit = wait want seen currentLimit := by
  have hlimit : uintptr currentLimit = currentLimit.toNat := by
    unfold uintptr
    omega
  simp only [waitState, wait, hlimit, burstLoop_eq, Nat.sub_zero, Int.toNat_of_nonneg h]
  cases (waitLoop seen.probe want currentLimit.toNat 0).2 with
  | true => rfl
  | false =>
    by_cases hwoken : seen.afterSleep = want
    · simp only [if_pos hwoken]
    · simp only [if_neg hwoken]

end Refinement

section Limit

def InRange (limit : Int) : Prop := waitStrategyMinSpin ≤ limit ∧ limit ≤ waitStrategyMaxSpin

instance (limit : Int) : Decidable (InRange limit) := inferInstanceAs (Decidable (_ ∧ _))

theorem inRange_adapted {cur newLimit : Int} {hit : Bool} (h : InRange cur)
    (hnew : adapted hit cur = some newLimit) : InRange newLimit := by
  unfold InRange waitStrategyMinSpin waitStrategyMaxSpin at h ⊢
  unfold adapted waitStrategyMinSpin waitStrategyMaxSpin waitStrategyIncStep
    waitStrategyDecStep at hnew
  have hgrow : int32 (cur + 5000) = cur + 5000 := int32_eq_self ⟨by omega, by omega⟩
  have hshrink : int32 (cur - 1000) = cur - 1000 := int32_eq_self ⟨by omega, by omega⟩
  simp only [hgrow, hshrink] at hnew
  cases hit with
  | true =>
    simp only [if_true] at hnew
    split at hnew
    · cases hnew
    · cases hnew
      split
      · omega
      · omega
  | false =>
    simp only [Bool.false_eq_true, if_false] at hnew
    split at hnew
    · cases hnew
    · cases hnew
      split
      · omega
      · omega

theorem inRange_recordOutcome {limit : Int} (hit : Bool) (h : InRange limit) :
    InRange (recordOutcome hit (int32 limit) limit) := by
  have hbounds := h
  unfold InRange waitStrategyMinSpin waitStrategyMaxSpin at hbounds
  rw [int32_eq_self ⟨by omega, by omega⟩]
  unfold recordOutcome
  cases hnew : adapted hit limit with
  | none => exact h
  | some newLimit =>
    simp only [if_true]
    exact inRange_adapted h hnew

theorem inRange_wait (want : UInt32) (seen : Observed) {limit : Int} (h : InRange limit) :
    InRange (wait want seen limit).currentLimit := by
  unfold wait
  simp only
  split
  · exact inRange_recordOutcome true h
  · exact inRange_recordOutcome false h

theorem inRange_waitState (want : UInt32) (seen : Observed) {limit : Int} (h : InRange limit) :
    InRange (waitState want seen limit).currentLimit := by
  have hbounds := h
  unfold InRange waitStrategyMinSpin waitStrategyMaxSpin at hbounds
  rw [waitState_eq_wait want seen (by omega) (by omega)]
  exact inRange_wait want seen h

structure WaitCall where
  assembly : Bool
  want : UInt32
  seen : Observed

def limitAfter (limit : Int) : List WaitCall → Int
  | [] => limit
  | call :: calls =>
    limitAfter (if call.assembly then (waitState call.want call.seen limit).currentLimit
      else (wait call.want call.seen limit).currentLimit) calls

theorem inRange_limitAfter (calls : List WaitCall) {limit : Int} (h : InRange limit) :
    InRange (limitAfter limit calls) := by
  induction calls generalizing limit with
  | nil => exact h
  | cons call calls ih =>
    apply ih
    split
    · exact inRange_waitState call.want call.seen h
    · exact inRange_wait call.want call.seen h

end Limit

/-- The two forms of a wait cannot be told apart, and no sequence of waits takes the limit
out of its range. -/
theorem waits_agree :
    (∀ currentLimit : Int, 0 ≤ currentLimit → currentLimit < 2 ^ 31 →
      ∀ want seen, waitState want seen currentLimit = wait want seen currentLimit) ∧
    ∀ limit, InRange limit → ∀ calls, InRange (limitAfter limit calls) :=
  ⟨fun _ h h32 want seen => waitState_eq_wait want seen h h32,
    fun _ h calls => inRange_limitAfter calls h⟩

/-- The value shows up at the last probe of the budget, or after the sleep only. -/
theorem waits_agree_lastProbe :
    waitState 1 ⟨fun i => if i = 2 then 1 else 0, 0⟩ 3 = ⟨3, false, true, 5003⟩ ∧
    waitState 1 ⟨fun i => if i = 3 then 1 else 0, 1⟩ 3 = ⟨3, true, true, 3⟩ ∧
    InRange (limitAfter 100 [⟨true, 1, ⟨fun _ => 0, 0⟩⟩, ⟨false, 1, ⟨fun _ => 1, 0⟩⟩]) :=
  ⟨(waits_agree.1 3 (by decide) (by decide) _ _).trans (by decide),
    (waits_agree.1 3 (by decide) (by decide) _ _).trans (by decide),
    waits_agree.2 100 (by decide) _⟩

end ShmIpc.Slots.Go
