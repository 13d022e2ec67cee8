import Mathlib.Data.Finset.Card
import Mathlib.Data.List.Basic
import Mathlib.Data.List.Infix

/-!
A log of who was active, the latest first. The stamp of a member is the number of entries
up to its last activity, which is what a counter bumped at every entry would have left on
it; of two members the one with the smaller stamp has been inactive for longer.
-/

namespace ShmIpc.Library

variable {α : Type} [DecidableEq α] {log : List α} {x y : α}

/-- Who has been active since the last activity of `x`. -/
def since (log : List α) (x : α) : List α := log.take (log.idxOf x)

def stamp (log : List α) (x : α) : Nat := log.length - log.idxOf x

theorem stamp_cons (log : List α) (x y : α) :
    stamp (y :: log) x = if x = y then log.length + 1 else stamp log x := by
  by_cases hxy : x = y
  · subst hxy
    rw [if_pos rfl, stamp, List.idxOf_cons_self, List.length_cons, Nat.sub_zero]
  · rw [if_neg hxy, stamp, List.idxOf_cons_ne log (Ne.symm hxy), List.length_cons,
      Nat.succ_sub_succ, stamp]

theorem stamp_le_length (log : List α) (x : α) : stamp log x ≤ log.length :=
  Nat.sub_le _ _

theorem stamp_pos_iff : 0 < stamp log x ↔ x ∈ log := by
  rw [stamp, Nat.sub_pos_iff_lt, List.idxOf_lt_length_iff]

/-- No two members have the same stamp. -/
theorem eq_of_stamp_eq (hx : x ∈ log) (h : stamp log x = stamp log y) : x = y := by
  have hxlt := List.idxOf_lt_length_of_mem hx
  have hylt : log.idxOf y < log.length := by
    unfold stamp at h
    omega
  have hidx : log.idxOf x = log.idxOf y := by
    unfold stamp at h
    omega
  exact (List.idxOf_inj hx).mp hidx

theorem mem_since_of_stamp_lt (h : stamp log x < stamp log y) : y ∈ since log x := by
  have hy : y ∈ log := stamp_pos_iff.mp (Nat.zero_lt_of_lt h)
  have hlt : log.idxOf y < log.idxOf x := by
    unfold stamp at h
    omega
  rw [since, List.mem_take_iff_getElem]
  have hlen := List.idxOf_lt_length_of_mem hy
  exact ⟨log.idxOf y, by omega, List.getElem_idxOf hlen⟩

theorem since_cons_of_ne (h : x ≠ y) : since (y :: log) x = y :: since log x := by
  rw [since, List.idxOf_cons_ne log (Ne.symm h), List.take_succ_cons, since]

/-- Everyone in `s` has been active since `x` was, and so has `y`, who is not in `s`. -/
theorem card_lt_since {s : Finset α} (hs : ∀ z ∈ s, z ∈ since log x) (hys : y ∉ s)
    (hxy : x ≠ y) : s.card + 1 ≤ (since (y :: log) x).toFinset.card := by
  rw [← Finset.card_insert_of_notMem hys, since_cons_of_ne hxy, List.toFinset_cons]
  refine Finset.card_le_card (Finset.insert_subset_insert y ?_)
  intro z hz
  exact List.mem_toFinset.mpr (hs z hz)

end ShmIpc.Library
