import Mathlib.Algebra.Order.Ring.Int
import Mathlib.Data.Int.GCD
import Mathlib.Data.List.Nodup
import Mathlib.Data.List.Perm.Subperm
import Mathlib.Data.List.Range
import Mathlib.Data.Nat.ModEq

/-!
A free-running counter of period `period` used modulo a number `n`. The counter's own
wrap-around is invisible modulo `n` exactly if `n` divides the period. Two uses are
followed here: `n` successive values of the counter as a tour of the numbers below `n`,
and the classes of the numbers `i, i + n, i + 2 n, …` as disjoint supplies of values.
-/

namespace ShmIpc.Library

/-- A tour of the right length that stays below `n` is complete if it is injective. -/
theorem perm_range_of_injOn {n : Nat} {visit : Nat → Nat} (hlt : ∀ j, j < n → visit j < n)
    (hinj : ∀ j, j < n → ∀ k, k < n → visit j = visit k → j = k) :
    ((List.range n).map visit).Perm (List.range n) := by
  have hnodup : ((List.range n).map visit).Nodup := by
    refine List.Nodup.map_on ?_ List.nodup_range
    intro j hj k hk heq
    exact hinj j (List.mem_range.mp hj) k (List.mem_range.mp hk) heq
  have hsub : (List.range n).map visit ⊆ List.range n := by
    intro x hx
    obtain ⟨j, hj, rfl⟩ := List.mem_map.mp hx
    exact List.mem_range.mpr (hlt j (List.mem_range.mp hj))
  exact (hnodup.subperm hsub).perm_of_length_le (by simp)

theorem eq_of_add_mod_eq {n start j k : Nat} (hj : j < n) (hk : k < n)
    (h : (j + start) % n = (k + start) % n) : j = k := by
  have hmod := Nat.ModEq.add_right_cancel' start h
  rw [Nat.ModEq, Nat.mod_eq_of_lt hj, Nat.mod_eq_of_lt hk] at hmod
  exact hmod

/-- Successive numbers, reduced modulo `n`. -/
theorem rotation_perm_range {n : Nat} (start : Nat) :
    ((List.range n).map fun j => (j + start) % n).Perm (List.range n) := by
  apply perm_range_of_injOn
  · intro j hj
    exact Nat.mod_lt _ (by omega)
  · intro j hj k hk heq
    exact eq_of_add_mod_eq hj hk heq

/-- A number whose residue is the greatest one is followed by a multiple. -/
theorem succ_mod_eq_zero {n x : Nat} (hn : 0 < n) (h : x % n = n - 1) : (x + 1) % n = 0 := by
  apply Nat.mod_eq_zero_of_dvd
  refine ⟨x / n + 1, ?_⟩
  have hx := Nat.div_add_mod x n
  rw [h] at hx
  rw [Nat.mul_add, Nat.mul_one]
  omega

/-- Successive values of a counter, reduced modulo `n` after the counter's own wrap. -/
theorem wrapped_perm_range_iff {n period start : Nat} (hn : 0 < n) (hle : n ≤ period)
    (hstart : start < period) :
    ((List.range n).map fun j => (j + start) % period % n).Perm (List.range n) ↔
      start + n ≤ period ∨ n ∣ period := by
  constructor
  · intro hperm
    by_contra hnot
    rw [not_or] at hnot
    have hlast : n - 1 ∈ (List.range n).map fun j => (j + start) % period % n :=
      hperm.mem_iff.mpr (List.mem_range.mpr (by omega))
    obtain ⟨j, hj, hvisit⟩ := List.mem_map.mp hlast
    rw [List.mem_range] at hj
    have hinj := List.inj_on_of_nodup_map (hperm.nodup_iff.mpr List.nodup_range)
    have hwrap : period - start < n := by omega
    have hzero : (period - start + start) % period % n = 0 := by
      rw [Nat.sub_add_cancel (by omega), Nat.mod_self, Nat.zero_mod]
    rcases Nat.lt_or_ge (j + start) period with hbefore | hafter
    · rw [Nat.mod_eq_of_lt hbefore] at hvisit
      have hnext := succ_mod_eq_zero hn hvisit
      rcases Nat.lt_or_ge (j + start + 1) period with hin | hend
      · have hsame := hinj (List.mem_range.mpr (show j + 1 < n by omega))
          (List.mem_range.mpr hwrap) (by
            rw [hzero, show j + 1 + start = j + start + 1 by omega, Nat.mod_eq_of_lt hin]
            exact hnext)
        omega
      · rw [show j + start + 1 = period by omega] at hnext
        exact hnot.2 (Nat.dvd_of_mod_eq_zero hnext)
    · rw [Nat.mod_eq_sub_mod hafter, Nat.mod_eq_of_lt (by omega : j + start - period < period),
        Nat.mod_eq_of_lt (by omega)] at hvisit
      omega
  · rintro (hshort | hdvd)
    · have heq : ((List.range n).map fun j => (j + start) % period % n) =
          (List.range n).map fun j => (j + start) % n := by
        apply List.map_congr_left
        intro j hj
        rw [List.mem_range] at hj
        rw [Nat.mod_eq_of_lt (show j + start < period by omega)]
      rw [heq]
      exact rotation_perm_range start
    · simp only [Nat.mod_mod_of_dvd _ hdvd]
      exact rotation_perm_range start

/-- Counters that start at different numbers below `stride` and advance by `stride` never
show the same value, exactly if the stride divides their period. -/
theorem strides_disjoint_iff (base : Nat) {stride period : Nat} (hstride : 0 < stride) :
    (∀ i, i < stride → ∀ j, j < stride → i ≠ j → ∀ a b,
      (base + i + a * stride) % period ≠ (base + j + b * stride) % period) ↔
      stride ∣ period := by
  constructor
  · intro hdisjoint
    by_contra hnot
    have hle : Nat.gcd stride period ≤ stride := Nat.gcd_le_left period hstride
    have hne : Nat.gcd stride period ≠ stride := fun h => hnot (h ▸ Nat.gcd_dvd_right stride period)
    have hpos : 0 < Nat.gcd stride period := Nat.gcd_pos_of_pos_left period hstride
    have hfar := hdisjoint 0 hstride (Nat.gcd stride period) (by omega) (by omega)
    rcases Nat.lt_or_ge (Nat.gcd stride period) period with hlt | hge
    · obtain ⟨a, -, ha⟩ := Nat.exists_mul_mod_eq_gcd hlt
      apply hfar a 0
      rw [Nat.add_zero, Nat.zero_mul, Nat.add_zero, Nat.add_mod, Nat.mul_comm a, ha,
        Nat.mod_add_mod]
    · apply hfar 0 0
      have hperiod : 0 < period := by
        rcases Nat.eq_zero_or_pos period with hzero | hpos
        · rw [hzero, Nat.gcd_zero_right] at hne
          exact absurd rfl hne
        · exact hpos
      have hself : Nat.gcd stride period = period :=
        Nat.le_antisymm (Nat.gcd_le_right stride hperiod) hge
      rw [hself, Nat.zero_mul, Nat.add_zero, Nat.add_zero, Nat.add_mod_right]
  · intro hdvd i hi j hj hne a b heq
    have hmod := congrArg (· % stride) heq
    simp only [Nat.mod_mod_of_dvd _ hdvd, Nat.add_mul_mod_self_right] at hmod
    rw [Nat.add_comm base i, Nat.add_comm base j] at hmod
    exact hne (eq_of_add_mod_eq hi hj hmod)

end ShmIpc.Library
