import Mathlib.Algebra.Order.BigOperators.Group.Finset
import ShmIpc.Library.Counting
import ShmIpc.Slots.ExchangeProgress

/-!
The end of a guest: `DirectGuest.Close` beside the worker goroutines that `Start` has
spawned. The body of `Close` runs once, in whichever of the racing callers comes first
(`closeOnce`). The host may change the words of any slot and signal any event meanwhile.
Guest calls under way are not tracked by the wait group and are left out.

No worker touches a slot once something is released, nothing is released twice, and `Close`
comes to its end, because each of the workers' waits ends after 100 ms and each of their
loops looks at the closing flag.
-/

namespace ShmIpc.Slots

open Library

inductive GuestHandle
  | reqEvent (i : Nat)
  | respEvent (i : Nat)
  | region
  deriving DecidableEq, Repr

structure GuestExtent where
  numSlots : Nat
  numGuestSlots : Nat

/-- What `Close` releases, in its order. -/
def GuestExtent.handles (extent : GuestExtent) : List GuestHandle :=
  (List.range (extent.numSlots + extent.numGuestSlots)).flatMap
    (fun i => [.reqEvent i, .respEvent i]) ++ [.region]

theorem GuestExtent.nodup_handles (extent : GuestExtent) : extent.handles.Nodup := by
  refine List.nodup_append.mpr ⟨List.nodup_flatMap.mpr ⟨by simp, ?_⟩, List.nodup_singleton _, ?_⟩
  · refine List.nodup_range.imp fun {i j} hij => ?_
    simp [Function.onFun, List.Disjoint, hij]
  · simp +contextual [or_imp]

/-- The function under `closeOnce`. -/
inductive CloseBody
  | notStarted
  | setClosing
  | waitGroup
  | releasing (todo : List GuestHandle)
  deriving DecidableEq, Repr

def CloseBody.todo (extent : GuestExtent) : CloseBody → List GuestHandle
  | .notStarted | .setClosing | .waitGroup => extent.handles
  | .releasing todo => todo

inductive CloseCaller
  | idle
  | waiting
  | returned
  deriving DecidableEq, Repr

/-- A worker is gone from `goroutine` once its deferred `wg.Done` has run. -/
structure GuestProcess (Cid : Type) where
  line : Nat → BellLine
  goroutine : Nat → Option BellWorkerPc
  wg : Nat
  closing : Bool
  body : CloseBody
  caller : Cid → CloseCaller
  released : List GuestHandle

inductive GuestProcessAction (Cid : Type)
  | worker (i : Nat) (move : BellWorkerMove)
  | exit (i : Nat)
  | peer (i : Nat) (line : BellLine)
  | call (c : Cid)
  | body
  | leave (c : Cid)

/-- The steps that a worker of a closing guest still takes before it leaves. -/
def BellWorkerPc.closingSteps : BellWorkerPc → Nat
  | .exited => 0
  | .workerLoop | .loop => 1
  | .setActive | .signal _ => 2
  | .loadHostState _ => 3
  | .publish _ => 4
  | .lock _ => 5
  | .recoverCheck => 6
  | .recovering => 7
  | .handling => 8
  | .claim => 9
  | .lastCheck => 10
  | .withdraw | .woken => 11
  | .parked => 12
  | .recheck => 13
  | .announce => 14
  | .spinning i => 15 + (maxSpins - i)

theorem BellWorkerGoes.closingSteps_lt {line line' : BellLine} {pc pc' : BellWorkerPc}
    {move : BellWorkerMove} (hgo : BellWorkerGoes true line pc move line' pc') :
    pc'.closingSteps < pc.closingSteps := by
  cases hgo with
  | enters h | loop h | woken h | recovering h => exact absurd rfl h
  | lockFails next | publishFails next | hostActive next | signal next => cases next <;> decide
  | _ =>
    simp only [BellWorkerPc.closingSteps]
    omega

namespace GuestProcess

variable {Cid : Type}

def started (Cid : Type) (extent : GuestExtent) (line : Nat → BellLine) : GuestProcess Cid where
  line := line
  goroutine := fun _ => some .workerLoop
  wg := extent.numSlots
  closing := false
  body := .notStarted
  caller := fun _ => .idle
  released := []

def bodyStep (extent : GuestExtent) (s : GuestProcess Cid) : Option (GuestProcess Cid) :=
  match s.body with
  | .notStarted | .releasing [] => none
  | .setClosing => some { s with closing := true, body := .waitGroup }
  | .waitGroup => if s.wg = 0 then some { s with body := .releasing extent.handles } else none
  | .releasing (h :: todo) => some { s with released := s.released ++ [h], body := .releasing todo }

def workerStep (s : GuestProcess Cid) (i : Nat) (move : BellWorkerMove) :
    Option (GuestProcess Cid) := do
  let pc ← s.goroutine i
  let (line, pc') ← bellWorkerMove s.closing (s.line i) pc move
  some { s with
    line := Function.update s.line i line
    goroutine := Function.update s.goroutine i (some pc') }

def step [DecidableEq Cid] (extent : GuestExtent) (s : GuestProcess Cid) :
    GuestProcessAction Cid → Option (GuestProcess Cid)
  | .worker i move => if i < extent.numSlots then workerStep s i move else none
  | .exit i =>
    if i < extent.numSlots ∧ s.goroutine i = some .exited then
      some { s with wg := s.wg - 1, goroutine := Function.update s.goroutine i none }
    else none
  | .peer i line => some { s with line := Function.update s.line i line }
  | .call c =>
    if s.caller c = .idle then
      some { s with
        caller := Function.update s.caller c .waiting
        body := if s.body = .notStarted then .setClosing else s.body }
    else none
  | .body => bodyStep extent s
  | .leave c =>
    if s.caller c = .waiting ∧ s.body = .releasing [] then
      some { s with caller := Function.update s.caller c .returned }
    else none

variable {extent : GuestExtent} {s s' : GuestProcess Cid}

theorem workerStep_eq_some {i : Nat} {move : BellWorkerMove} (h : workerStep s i move = some s') :
    ∃ pc line pc', s.goroutine i = some pc ∧ BellWorkerGoes s.closing (s.line i) pc move line pc' ∧
      s' = { s with
        line := Function.update s.line i line
        goroutine := Function.update s.goroutine i (some pc') } := by
  obtain ⟨pc, hpc, h⟩ := Option.bind_eq_some_iff.mp h
  obtain ⟨r, hr, h⟩ := Option.bind_eq_some_iff.mp h
  cases h
  exact ⟨pc, r.1, r.2, hpc, bellWorkerGoes_of_move hr, rfl⟩

/-! ### What has been released -/

structure Inv (extent : GuestExtent) (s : GuestProcess Cid) : Prop where
  counter : s.wg = (List.range extent.numSlots).countP fun i => (s.goroutine i).isSome
  drained : ∀ todo, s.body = .releasing todo → s.wg = 0
  rest : s.released ++ s.body.todo extent = extent.handles
  flagged : s.closing = true ↔ s.body ≠ .notStarted ∧ s.body ≠ .setClosing
  returned : ∀ c, s.caller c = .returned → s.body = .releasing []

theorem inv_goroutine (h : Inv extent s) {i : Nat} (hi : i < extent.numSlots) {pc : BellWorkerPc}
    (hpc : s.goroutine i = some pc) (line : Nat → BellLine) (g : Option BellWorkerPc) :
    Inv extent { s with
      line := line
      wg := s.wg - (if g.isSome then 0 else 1)
      goroutine := Function.update s.goroutine i g } := by
  have hcount := countP_update_of_mem (List.range extent.numSlots)
    Option.isSome s.goroutine i g List.nodup_range (List.mem_range.mpr hi)
  refine ⟨?_, fun todo ht => by simp [h.drained todo ht], h.rest, h.flagged, h.returned⟩
  rw [h.counter]
  cases g <;> simp_all
  omega

def stepsLeft (extent : GuestExtent) (s : GuestProcess Cid) : Nat :=
  (s.body.todo extent).length + (if s.body = .waitGroup then 1 else 0) +
    ∑ i ∈ Finset.range extent.numSlots, ((s.goroutine i).elim 0 fun pc => pc.closingSteps + 1)

theorem body_step (h : Inv extent s) (hstep : bodyStep extent s = some s') :
    Inv extent s' ∧ (s.closing = true →
      s'.closing = true ∧ stepsLeft extent s' < stepsLeft extent s) := by
  obtain ⟨hcounter, hdrained, hrest, hflagged, hreturned⟩ := h
  unfold bodyStep at hstep
  split at hstep
  case h_1 | h_2 => cases hstep
  case h_3 hbody =>
    cases hstep
    simp only [hbody, CloseBody.todo] at hrest hreturned
    exact ⟨⟨hcounter, nofun, hrest, by simp, fun c hc => nomatch hreturned c hc⟩,
      fun hclosing => absurd hbody (hflagged.mp hclosing).2⟩
  case h_4 hbody =>
    obtain ⟨hwg, hstep⟩ := Option.ite_none_right_eq_some.mp hstep
    cases hstep
    simp only [hbody, CloseBody.todo] at hrest hreturned
    exact ⟨⟨hcounter, fun _ _ => hwg, hrest, by simpa [hbody] using hflagged,
      fun c hc => nomatch hreturned c hc⟩,
      fun hclosing => ⟨hclosing, by simp [stepsLeft, hbody, CloseBody.todo]⟩⟩
  case h_5 hd tl hbody =>
    cases hstep
    simp only [hbody, CloseBody.todo] at hrest hreturned
    exact ⟨⟨hcounter, fun _ _ => hdrained _ hbody, by simpa [CloseBody.todo] using hrest,
      by simpa [hbody] using hflagged, fun c hc => nomatch hreturned c hc⟩,
      fun hclosing => ⟨hclosing, by simp [stepsLeft, hbody, CloseBody.todo]⟩⟩

theorem goroutine_stepsLeft_lt {i : Nat} (hi : i < extent.numSlots) {pc : BellWorkerPc}
    (hpc : s.goroutine i = some pc) (g : Option BellWorkerPc)
    (hlt : (g.elim 0 fun pc => pc.closingSteps + 1) < pc.closingSteps + 1) (line : Nat → BellLine)
    (wg : Nat) :
    stepsLeft extent { s with
      line := line, wg := wg, goroutine := Function.update s.goroutine i g } <
      stepsLeft extent s := by
  refine Nat.add_lt_add_left (Finset.sum_lt_sum (fun j _ => ?_) ⟨i, Finset.mem_range.mpr hi, ?_⟩) _
  · by_cases hji : j = i
    · subst hji
      simpa [hpc] using Nat.le_of_lt hlt
    · simp [hji]
  · simpa [hpc] using hlt

variable [DecidableEq Cid]

theorem inv_step {a : GuestProcessAction Cid} (h : Inv extent s)
    (hstep : s.step extent a = some s') : Inv extent s' := by
  cases a with
  | worker i move =>
    obtain ⟨hi, hmove⟩ := Option.ite_none_right_eq_some.mp hstep
    obtain ⟨pc, line, pc', hpc, -, rfl⟩ := workerStep_eq_some hmove
    exact inv_goroutine h hi hpc _ (some pc')
  | exit i =>
    obtain ⟨⟨hi, hpc⟩, hmove⟩ := Option.ite_none_right_eq_some.mp hstep
    cases hmove
    exact inv_goroutine h hi hpc s.line none
  | peer i line =>
    cases hstep
    exact ⟨h.counter, h.drained, h.rest, h.flagged, h.returned⟩
  | body => exact (body_step h hstep).1
  | call c =>
    obtain ⟨-, hmove⟩ := Option.ite_none_right_eq_some.mp hstep
    cases hmove
    have hreturned : ∀ d, Function.update s.caller c CloseCaller.waiting d = .returned →
        s.body = .releasing [] := by
      intro d hd
      by_cases hdc : d = c
      · simp [hdc] at hd
      · exact h.returned d (by simpa [hdc] using hd)
    by_cases hbody : s.body = .notStarted
    · have hrest := h.rest
      simp only [hbody, if_true] at hreturned hrest ⊢
      exact ⟨h.counter, nofun, hrest, by simpa [hbody] using h.flagged,
        fun d hd => nomatch hreturned d hd⟩
    · simp only [if_neg hbody]
      exact ⟨h.counter, h.drained, h.rest, h.flagged, hreturned⟩
  | leave c =>
    obtain ⟨⟨-, hbody⟩, hmove⟩ := Option.ite_none_right_eq_some.mp hstep
    cases hmove
    exact ⟨h.counter, h.drained, h.rest, h.flagged, fun _ _ => hbody⟩

theorem inv_of_reachable {line : Nat → BellLine} {guard}
    (hs : Reachable (step extent) guard (started Cid extent line) s) : Inv extent s :=
  hs.invariant (Inv extent)
    ⟨by simp [started], nofun, rfl, by simp [started], nofun⟩
    fun _ _ _ h _ hstep => inv_step h hstep

/-- Nothing is used after it was released, nothing is released twice, and a `Close` that
returns has released everything. -/
theorem close_releases_once {line : Nat → BellLine}
    (hs : Reachable (step extent) (fun _ _ => True) (started Cid extent line) s) :
    (s.released ≠ [] → ∀ i move, s.step extent (.worker i move) = none) ∧ s.released.Nodup ∧
      ∀ c, s.caller c = .returned → s.released = extent.handles := by
  have hinv := inv_of_reachable hs
  have hrest := hinv.rest
  refine ⟨fun hreleased i move => ?_, ?_, fun c hc => ?_⟩
  · have hwg : s.wg = 0 := by
      cases hbody : s.body with
      | releasing todo => exact hinv.drained todo hbody
      | _ => exact absurd (by simpa [hbody, CloseBody.todo] using hrest) hreleased
    have hgone := hinv.counter
    rw [hwg, eq_comm, List.countP_eq_zero] at hgone
    by_cases hi : i < extent.numSlots
    · have hnone : s.goroutine i = none := by simpa using hgone i (List.mem_range.mpr hi)
      simp [step, workerStep, hnone]
    · simp [step, hi]
  · have hnodup := extent.nodup_handles
    rw [← hrest] at hnodup
    exact hnodup.of_append_left
  · simpa [hinv.returned c hc, CloseBody.todo] using hrest

/-- A guest with one host slot and one guest slot is closed by two callers at once. -/
theorem close_releases_once_for_two_callers :
    ∃ s : GuestProcess Bool, s.caller true = .returned ∧ s.caller false = .returned ∧
      (∀ i move, s.step ⟨1, 1⟩ (.worker i move) = none) ∧
      s.released = [.reqEvent 0, .respEvent 0, .reqEvent 1, .respEvent 1, .region] := by
  obtain ⟨s, hs, htest⟩ := exists_reachable_of_run (step ⟨1, 1⟩)
    (started Bool ⟨1, 1⟩ fun _ => ⟨.free, .active, .active, false, false⟩)
    [.worker 0 .run, .call true, .call false, .body, .worker 0 .run, .worker 0 .run, .exit 0,
      .body, .body, .body, .body, .body, .body, .leave false, .leave true]
    (fun s => s.caller true = .returned ∧ s.caller false = .returned) (by decide +kernel)
  obtain ⟨htrue, hfalse⟩ := of_decide_eq_true htest
  obtain ⟨hgone, -, hreturned⟩ := close_releases_once hs
  have hreleased := hreturned true htrue
  exact ⟨s, htrue, hfalse, hgone (by rw [hreleased]; nofun), hreleased⟩

/-! ### How long it takes -/

/-- The steps of the workers and of the body of `Close`. -/
def due : GuestProcessAction Cid → Bool
  | .worker _ _ | .exit _ | .body => true
  | _ => false

theorem stepsLeft_step {a : GuestProcessAction Cid} (hinv : Inv extent s)
    (hclosing : s.closing = true) (hstep : s.step extent a = some s') :
    s'.closing = true ∧ stepsLeft extent s' + (if due a then 1 else 0) ≤ stepsLeft extent s := by
  cases a with
  | worker i move =>
    obtain ⟨hi, hmove⟩ := Option.ite_none_right_eq_some.mp hstep
    obtain ⟨pc, line, pc', hpc, hgo, rfl⟩ := workerStep_eq_some hmove
    rw [hclosing] at hgo
    exact ⟨hclosing,
      goroutine_stepsLeft_lt hi hpc (some pc') (Nat.succ_lt_succ hgo.closingSteps_lt) _ _⟩
  | exit i =>
    obtain ⟨⟨hi, hpc⟩, hmove⟩ := Option.ite_none_right_eq_some.mp hstep
    cases hmove
    exact ⟨hclosing, goroutine_stepsLeft_lt hi hpc none Nat.one_pos _ _⟩
  | body => exact (body_step hinv hstep).2 hclosing
  | peer i line =>
    cases hstep
    exact ⟨hclosing, Nat.le_refl _⟩
  | call c =>
    obtain ⟨-, hmove⟩ := Option.ite_none_right_eq_some.mp hstep
    cases hmove
    simp [stepsLeft, due, hclosing, (hinv.flagged.mp hclosing).1]
  | leave c =>
    obtain ⟨-, hmove⟩ := Option.ite_none_right_eq_some.mp hstep
    cases hmove
    exact ⟨hclosing, Nat.le_refl _⟩

/-- A worker that has not left can go on, if only because its wait is over. -/
theorem exists_due_of_running {i : Nat} (hi : i < extent.numSlots) {pc : BellWorkerPc}
    (hpc : s.goroutine i = some pc) : ∃ a, due a = true ∧ (s.step extent a).isSome = true := by
  by_cases hexited : pc = .exited
  · exact ⟨.exit i, rfl, by simp [step, hi, hpc, hexited]⟩
  · by_cases hparked : pc = .parked
    · exact ⟨.worker i .expire, rfl, by simp [step, workerStep, hi, hpc, hparked, bellWorkerMove]⟩
    · have hrun : (bellWorkerRun s.closing (s.line i) pc).isSome = true :=
        bellWorkerRun_isSome _ hexited fun h => absurd h hparked
      obtain ⟨r, hr⟩ := Option.isSome_iff_exists.mp hrun
      exact ⟨.worker i .run, rfl, by simp [step, workerStep, hi, hpc, bellWorkerMove, hr]⟩

theorem Inv.progress (h : Inv extent s) (hclosing : s.closing = true) :
    decide (s.body = .releasing []) = true ∨
      ∃ a, due a = true ∧ (s.step extent a).isSome = true := by
  obtain ⟨hbegun, hraised⟩ := h.flagged.mp hclosing
  cases hbody : s.body with
  | notStarted => exact absurd hbody hbegun
  | setClosing => exact absurd hbody hraised
  | releasing todo =>
    cases todo with
    | nil => exact Or.inl rfl
    | cons _ _ => exact Or.inr ⟨.body, rfl, by simp [step, bodyStep, hbody]⟩
  | waitGroup =>
    right
    by_cases hwg : s.wg = 0
    · exact ⟨.body, rfl, by simp [step, bodyStep, hbody, hwg]⟩
    · rw [h.counter] at hwg
      obtain ⟨i, hi, hrunning⟩ := List.countP_pos_iff.mp (Nat.pos_of_ne_zero hwg)
      obtain ⟨pc, hpc⟩ := Option.isSome_iff_exists.mp hrunning
      exact exists_due_of_running (List.mem_range.mp hi) hpc

/-- Once the flag is up `Close` comes to its end, after a bounded number of steps of the
workers and of its own, whatever the host does to the slots meanwhile and however many
other calls come in. -/
theorem close_finishes {line : Nat → BellLine}
    (hs : Reachable (step extent) (fun _ _ => True) (started Cid extent line) s)
    (hclosing : s.closing = true) :
    Settles (step extent) due (fun s => s.body = .releasing []) s := by
  refine Settles.of_measure (fun s => Inv extent s ∧ s.closing = true) (stepsLeft extent)
    ⟨inv_of_reachable hs, hclosing⟩ (fun s a s' h hstep => ?_) fun s h => h.1.progress h.2
  obtain ⟨hclosing, hle⟩ := stepsLeft_step h.1 h.2 hstep
  exact ⟨⟨inv_step h.1 hstep, hclosing⟩, hle⟩

/-- The worker of the only slot has just begun to look for a request. -/
theorem close_finishes_beside_spinning_worker :
    ∃ s : GuestProcess Unit, s.goroutine 0 = some (.spinning 0) ∧
      Settles (step ⟨1, 0⟩) due (fun s => s.body = .releasing []) s := by
  obtain ⟨s, hs, htest⟩ := exists_reachable_of_run (step ⟨1, 0⟩)
    (started Unit ⟨1, 0⟩ fun _ => ⟨.free, .active, .active, false, false⟩)
    [.worker 0 .run, .worker 0 .run, .worker 0 .run, .call (), .body]
    (fun s => s.closing = true ∧ s.goroutine 0 = some (.spinning 0)) (by decide +kernel)
  obtain ⟨hclosing, hpc⟩ := of_decide_eq_true htest
  exact ⟨s, hpc, close_finishes hs hclosing⟩

end GuestProcess

end ShmIpc.Slots
