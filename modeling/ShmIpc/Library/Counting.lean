import Mathlib.Algebra.Order.Ring.Int
import Mathlib.Data.Finset.Card
import Mathlib.Data.Finset.Range
import Mathlib.Logic.Function.Basic

/-!
How the number of entries with a property changes when one entry of a table is
replaced, and where a table has an entry left.
-/

namespace ShmIpc.Library

variable {ι α : Type} [DecidableEq ι]

theorem countP_update_of_notMem (l : List ι) (p : α → Bool) (f : ι → α) (x : ι) (u : α)
    (hx : x ∉ l) :
    l.countP (fun y => p (Function.update f x u y)) = l.countP fun y => p (f y) := by
  apply List.countP_congr
  intro y hy
  have hne : y ≠ x := fun h => hx (h ▸ hy)
  rw [Function.update_of_ne hne]

theorem countP_update_of_mem (l : List ι) (p : α → Bool) (f : ι → α) (x : ι) (u : α)
    (hnodup : l.Nodup) (hx : x ∈ l) :
    l.countP (fun y => p (Function.update f x u y)) + (if p (f x) then 1 else 0) =
      l.countP (fun y => p (f y)) + (if p u then 1 else 0) := by
  induction l with
  | nil => cases hx
  | cons y l ih =>
    rw [List.nodup_cons] at hnodup
    rw [List.countP_cons, List.countP_cons]
    cases List.mem_cons.mp hx with
    | inl heq =>
      subst heq
      rw [countP_update_of_notMem l p f x u hnodup.1, Function.update_self]
      omega
    | inr hmem =>
      have hne : y ≠ x := fun heq => hnodup.1 (heq ▸ hmem)
      have hrest := ih hnodup.2 hmem
      rw [Function.update_of_ne hne]
      omega

/-- A list shorter than a range leaves a number of the range outside it. -/
theorem exists_lt_notMem (l : List Nat) (n : Nat) (h : l.length < n) :
    ∃ i, i < n ∧ i ∉ l := by
  by_contra hall
  have hsub : Finset.range n ⊆ l.toFinset := by
    intro i hi
    rw [List.mem_toFinset]
    by_contra hmem
    exact hall ⟨i, Finset.mem_range.mp hi, hmem⟩
  have hcard := Finset.card_le_card hsub
  have hle := List.toFinset_card_le l
  rw [Finset.card_range] at hcard
  omega

end ShmIpc.Library
