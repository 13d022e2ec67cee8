/-!
Guarded executable transition systems. A system is a step function that says
which actions are enabled in a state; a run is a list of enabled actions. A
guard narrows the runs under consideration without changing the system, which
is how a result that holds under a condition on each step is stated.
-/

namespace ShmIpc.Library

universe u v w x y

variable {σ : Type u} {α : Type v} {η : Type w} {τ : Type x} {β : Type y}

/-- The state after a list of actions, if each is enabled in turn. -/
def exec (step : σ → α → Option σ) (s : σ) : List α → Option σ
  | [] => some s
  | a :: acts => (step s a).bind fun s' => exec step s' acts

theorem exec_cons {step : σ → α → Option σ} {s s' : σ} {a : α} (h : step s a = some s')
    (acts : List α) : exec step s (a :: acts) = exec step s' acts := by
  rw [exec, h]
  rfl

theorem exec_append (step : σ → α → Option σ) (s : σ) (acts rest : List α) :
    exec step s (acts ++ rest) = (exec step s acts).bind fun s' => exec step s' rest := by
  induction acts generalizing s with
  | nil => rfl
  | cons a acts ih => simp only [List.cons_append, exec, ih, Option.bind_assoc]

/-- A part of the state that moves by itself: a run of the part is a run of the whole. -/
theorem exec_map (step : σ → α → Option σ) (part : τ → β → Option τ) (whole : τ → σ) (act : β → α)
    (h : ∀ c b, step (whole c) (act b) = (part c b).map whole) (acts : List β) (c : τ) :
    exec step (whole c) (acts.map act) = (exec part c acts).map whole := by
  induction acts generalizing c with
  | nil => rfl
  | cons b acts ih =>
    rw [List.map_cons, exec, exec, h, Option.bind_map, Option.map_bind]
    exact congrArg (Option.bind (part c b)) (funext ih)

/-- States reached by enabled actions that satisfy the guard where they occur. -/
inductive Reachable (step : σ → α → Option σ) (guard : σ → α → Prop) (start : σ) : σ → Prop
  | start : Reachable step guard start start
  | step (s s' : σ) (a : α) (hs : Reachable step guard start s) (hguard : guard s a)
      (hstep : step s a = some s') : Reachable step guard start s'

/-- What holds initially and is kept by every guarded step holds throughout. -/
theorem Reachable.invariant {step : σ → α → Option σ} {guard : σ → α → Prop} {start s : σ}
    (P : σ → Prop) (hs : Reachable step guard start s) (hstart : P start)
    (hstep : ∀ s a s', P s → guard s a → step s a = some s' → P s') : P s := by
  induction hs with
  | start => exact hstart
  | step s s' a _ hguard ha ih => exact hstep s a s' ih hguard ha

theorem Reachable.mono {step : σ → α → Option σ} {guard guard' : σ → α → Prop} {start s : σ}
    (h : ∀ s a, guard s a → guard' s a) (hs : Reachable step guard start s) :
    Reachable step guard' start s := by
  induction hs with
  | start => exact .start
  | step s s' a _ hguard ha ih => exact .step s s' a ih (h s a hguard) ha

theorem Reachable.trans {step : σ → α → Option σ} {guard : σ → α → Prop} {start s s' : σ}
    (hs : Reachable step guard start s) (hs' : Reachable step guard s s') :
    Reachable step guard start s' :=
  hs'.invariant (Reachable step guard start) hs fun s₁ a s₂ ih => .step s₁ s₂ a ih

/-- A system that performs only the actions which a test admits. -/
def checked (check : σ → α → Bool) (step : σ → α → Option σ) (s : σ) (a : α) : Option σ :=
  if check s a then step s a else none

theorem Reachable.trans_exec {step : σ → α → Option σ} {guard : σ → α → Prop} {start s s' : σ}
    {check : σ → α → Bool} (hcheck : ∀ s a, check s a = true → guard s a) (acts : List α)
    (hs : Reachable step guard start s) (h : exec (checked check step) s acts = some s') :
    Reachable step guard start s' := by
  induction acts generalizing s with
  | nil =>
    cases h
    exact hs
  | cons a acts ih =>
    obtain ⟨s₁, ha, hrest⟩ := Option.bind_eq_some_iff.mp h
    simp only [checked] at ha
    split at ha
    case isTrue hc => exact ih (.step s s₁ a hs (hcheck s a hc) ha) hrest
    case isFalse _ => cases ha

theorem Reachable.of_exec {step : σ → α → Option σ} {guard : σ → α → Prop} {s s' : σ}
    (acts : List α) (hguard : ∀ s, ∀ a ∈ acts, guard s a) (h : exec step s acts = some s') :
    Reachable step guard s s' := by
  induction acts generalizing s with
  | nil =>
    cases h
    exact .start
  | cons a acts ih =>
    obtain ⟨s₁, ha, hrest⟩ := Option.bind_eq_some_iff.mp h
    exact .trans (.step s s₁ a .start (hguard s a List.mem_cons_self) ha)
      (ih (fun s b hb => hguard s b (List.mem_cons_of_mem a hb)) hrest)

/-- A run that passes the guard's test all along and ends where another test
succeeds shows a reachable state that passes it. -/
theorem exists_reachable_of_exec (step : σ → α → Option σ) (guard : σ → α → Prop) (start : σ)
    (check : σ → α → Bool) (hcheck : ∀ s a, check s a = true → guard s a) (acts : List α)
    (test : σ → Bool) (h : (exec (checked check step) start acts).any test = true) :
    ∃ s, Reachable step guard start s ∧ test s = true := by
  cases hs : exec (checked check step) start acts with
  | none => rw [hs] at h; cases h
  | some s =>
    rw [hs] at h
    exact ⟨s, Reachable.trans_exec hcheck acts .start hs, h⟩

/-- The case of a system whose steps are not restricted. -/
theorem exists_reachable_of_run (step : σ → α → Option σ) (start : σ) (acts : List α)
    (test : σ → Bool) (h : (exec (checked (fun _ _ => true) step) start acts).any test = true) :
    ∃ s, Reachable step (fun _ _ => True) start s ∧ test s = true :=
  exists_reachable_of_exec step _ start _ (fun _ _ _ => trivial) acts test h

/-- What holds at the start of a run and is kept by each of its steps holds at
its end; the actions of the run may be assumed to satisfy a property. -/
theorem exec_invariant {step : σ → α → Option σ} (P : σ → Prop) (allowed : α → Prop)
    (hstep : ∀ s a s', P s → allowed a → step s a = some s' → P s')
    (acts : List α) (s s' : σ) (hs : P s) (hacts : ∀ a ∈ acts, allowed a)
    (h : exec step s acts = some s') : P s' := by
  induction acts generalizing s with
  | nil =>
    cases h
    exact hs
  | cons a acts ih =>
    obtain ⟨s₁, ha, hrest⟩ := Option.bind_eq_some_iff.mp h
    exact ih s₁ (hstep s a s₁ hs (hacts a List.mem_cons_self) ha)
      (fun b hb => hacts b (List.mem_cons_of_mem a hb)) hrest

/-- A measure that some actions lower and no action raises bounds how often
those actions occur in a run. -/
theorem exec_countP_le {step : σ → α → Option σ} (P : σ → Prop) (allowed : α → Prop)
    (measure : σ → Nat) (lowers : α → Bool)
    (hstep : ∀ s a s', P s → allowed a → step s a = some s' → P s' ∧
      measure s' + (if lowers a then 1 else 0) ≤ measure s)
    (acts : List α) (s s' : σ) (hs : P s) (hacts : ∀ a ∈ acts, allowed a)
    (h : exec step s acts = some s') : measure s' + acts.countP lowers ≤ measure s := by
  induction acts generalizing s with
  | nil =>
    cases h
    exact Nat.le_refl _
  | cons a acts ih =>
    obtain ⟨s₁, ha, hrest⟩ := Option.bind_eq_some_iff.mp h
    obtain ⟨hP, hle⟩ := hstep s a s₁ hs (hacts a List.mem_cons_self) ha
    have hrest' := ih s₁ hP (fun b hb => hacts b (List.mem_cons_of_mem a hb)) hrest
    rw [List.countP_cons]
    omega

/-- A system watched by a recorder, which sees every step and influences none. -/
def recorded (step : σ → α → Option σ) (record : σ → α → σ → η → η) (p : σ × η) (a : α) :
    Option (σ × η) :=
  (step p.1 a).map fun s' => (s', record p.1 a s' p.2)

theorem recorded_eq_some {step : σ → α → Option σ} {record : σ → α → σ → η → η}
    {p p' : σ × η} {a : α} (h : recorded step record p a = some p') :
    step p.1 a = some p'.1 ∧ p'.2 = record p.1 a p'.1 p.2 := by
  obtain ⟨s', hs', rfl⟩ := Option.map_eq_some_iff.mp h
  exact ⟨hs', rfl⟩

/-- What relates a system to its record at first and is kept by every step holds throughout. -/
theorem Reachable.recorded_invariant {step : σ → α → Option σ} {record : σ → α → σ → η → η}
    {guard : σ × η → α → Prop} {start p : σ × η} (I : σ → η → Prop)
    (hr : Reachable (recorded step record) guard start p) (hstart : I start.1 start.2)
    (hstep : ∀ s h a s', I s h → guard (s, h) a → step s a = some s' →
      I s' (record s a s' h)) : I p.1 p.2 := by
  refine hr.invariant (fun p => I p.1 p.2) hstart ?_
  intro q a q' hq hguard hrun
  obtain ⟨hs', hrecord⟩ := recorded_eq_some hrun
  rw [hrecord]
  exact hstep q.1 q.2 a q'.1 hq hguard hs'

end ShmIpc.Library
