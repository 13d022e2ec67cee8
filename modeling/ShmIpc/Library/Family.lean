import Mathlib.Logic.Function.Basic
import ShmIpc.Library.Transition

/-!
Copies of one system side by side. An action concerns one of them and leaves the
others alone; a guard may relate them, so that for instance only one of them is
active at a time. Whatever the guard, each component is in a state that the system
reaches by itself.
-/

namespace ShmIpc.Library

universe u v w

variable {ι : Type u} {σ : Type v} {α : Type w} [DecidableEq ι]

def family (step : σ → α → Option σ) (s : ι → σ) (a : ι × α) : Option (ι → σ) :=
  (step (s a.1) a.2).map (Function.update s a.1)

theorem Reachable.component {step : σ → α → Option σ} {guard : (ι → σ) → ι × α → Prop}
    {start s : ι → σ} (h : Reachable (family step) guard start s) (i : ι) :
    Reachable step (fun _ _ => True) (start i) (s i) := by
  induction h with
  | start => exact .start
  | step s s' a _ _ hstep ih =>
    obtain ⟨c, hc, rfl⟩ := Option.map_eq_some_iff.mp hstep
    by_cases hi : i = a.1
    · subst hi
      rw [Function.update_self]
      exact .step _ c a.2 ih trivial hc
    · rw [Function.update_of_ne hi]
      exact ih

/-- A run of one component. -/
theorem exec_family {step : σ → α → Option σ} (i : ι) (acts : List α) {s : ι → σ} {c : σ}
    (h : exec step (s i) acts = some c) :
    exec (family step) s (acts.map (i, ·)) = some (Function.update s i c) := by
  have hupdate : ∀ c, Function.update (Function.update s i c) i = Function.update s i :=
    fun c => funext fun _ => Function.update_idem ..
  have hmap := exec_map (family step) step (Function.update s i) (i, ·)
    (fun c a => by rw [family, Function.update_self, hupdate c]) acts (s i)
  rwa [Function.update_eq_self, h] at hmap

end ShmIpc.Library
