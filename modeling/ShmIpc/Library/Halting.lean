import ShmIpc.Library.Transition

/-!
Systems that come to an end. A system halts when its runs are bounded in length
and no state of a run is left without a step that is due, the final ones apart:
whoever keeps taking due steps ends in a final state. A measure shows this, a
state that waits for ever or a run that returns to its beginning refutes it. It
settles if that holds of some of its steps, however many others interfere.
-/

namespace ShmIpc.Library

universe u v

variable {σ : Type u} {α : Type v} {step : σ → α → Option σ} {due : α → Bool}
  {final : σ → Bool} {start s : σ}

def Halts (step : σ → α → Option σ) (due : α → Bool) (final : σ → Bool) (start : σ) : Prop :=
  ∃ bound, ∀ acts s, exec step start acts = some s → acts.length ≤ bound ∧
    (final s = true ∨ ∃ a, due a = true ∧ (step s a).isSome = true)

theorem exec_bounded (P : σ → Prop) (measure : σ → Nat) (lowers : α → Bool) (hstart : P start)
    (hstep : ∀ s a s', P s → step s a = some s' →
      P s' ∧ measure s' + (if lowers a then 1 else 0) ≤ measure s)
    (acts : List α) (hrun : exec step start acts = some s) :
    P s ∧ acts.countP lowers ≤ measure start := by
  have hP := exec_invariant P (fun _ => True) (fun s a s' hs _ ha => (hstep s a s' hs ha).1)
    acts start s hstart (fun _ _ => trivial) hrun
  have hcount := exec_countP_le P (fun _ => True) measure lowers
    (fun s a s' hs _ ha => hstep s a s' hs ha) acts start s hstart (fun _ _ => trivial) hrun
  exact ⟨hP, by omega⟩

theorem Halts.of_measure (P : σ → Prop) (measure : σ → Nat) (hstart : P start)
    (hstep : ∀ s a s', P s → step s a = some s' → P s' ∧ measure s' + 1 ≤ measure s)
    (hdue : ∀ s, P s → final s = true ∨ ∃ a, due a = true ∧ (step s a).isSome = true) :
    Halts step due final start := by
  refine ⟨measure start, ?_⟩
  intro acts s hrun
  obtain ⟨hP, hcount⟩ := exec_bounded P measure (fun _ => true) hstart hstep acts hrun
  rw [List.countP_true] at hcount
  exact ⟨hcount, hdue s hP⟩

theorem not_halts_of_stuck (acts : List α) (hrun : exec step start acts = some s)
    (hfinal : final s = false) (hstuck : ∀ a, due a = true → step s a = none) :
    ¬ Halts step due final start := by
  rintro ⟨bound, hbound⟩
  cases (hbound acts s hrun).2 with
  | inl hend => rw [hfinal] at hend; cases hend
  | inr hnext =>
    obtain ⟨a, ha, hsome⟩ := hnext
    rw [hstuck a ha] at hsome
    cases hsome

theorem exec_replicate (loop : List α) (hloop : exec step s loop = some s) (n : Nat) :
    exec step s (List.replicate n loop).flatten = some s := by
  induction n with
  | zero => rfl
  | succ n ih =>
    rw [List.replicate_succ, List.flatten_cons, exec_append, hloop]
    exact ih

theorem not_halts_of_cycle (acts loop : List α) (hrun : exec step start acts = some s)
    (hloop : exec step s loop = some s) (hne : loop ≠ []) : ¬ Halts step due final start := by
  rintro ⟨bound, hbound⟩
  have hlong := (hbound (acts ++ (List.replicate (bound + 1) loop).flatten) s
    (by rw [exec_append, hrun]; exact exec_replicate loop hloop _)).1
  have hpos := List.length_pos_iff.mpr hne
  have hmul : (bound + 1) * 1 ≤ (bound + 1) * loop.length := Nat.mul_le_mul_left _ hpos
  rw [List.length_append, List.length_flatten, List.map_replicate,
    List.sum_replicate_nat] at hlong
  omega

/-- A system that comes to an end whatever else goes on around it: the steps that are due
are bounded in number, though others may stand between them without a bound, and short of
a final state there always is one. -/
def Settles (step : σ → α → Option σ) (due : α → Bool) (final : σ → Bool) (start : σ) : Prop :=
  ∃ bound, ∀ acts s, exec step start acts = some s → acts.countP due ≤ bound ∧
    (final s = true ∨ ∃ a, due a = true ∧ (step s a).isSome = true)

theorem Settles.of_measure (P : σ → Prop) (measure : σ → Nat) (hstart : P start)
    (hstep : ∀ s a s', P s → step s a = some s' →
      P s' ∧ measure s' + (if due a then 1 else 0) ≤ measure s)
    (hdue : ∀ s, P s → final s = true ∨ ∃ a, due a = true ∧ (step s a).isSome = true) :
    Settles step due final start := by
  refine ⟨measure start, ?_⟩
  intro acts s hrun
  obtain ⟨hP, hcount⟩ := exec_bounded P measure due hstart hstep acts hrun
  exact ⟨hcount, hdue s hP⟩

end ShmIpc.Library
