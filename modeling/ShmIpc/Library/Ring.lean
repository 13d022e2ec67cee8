import Mathlib.Algebra.Order.Ring.Int
import ShmIpc.Library.Placement

/-!
A buffer used as a ring: item `k` of an unbounded sequence belongs in cell `k` modulo the
length of the buffer. A window of items at most as long as the buffer occupies distinct
cells, so the window can be extended at its end and read at its beginning without one
disturbing the other. Runs of items are moved in pieces that do not cross the end of the
buffer.
-/

namespace ShmIpc.Library

variable {α : Type*}

theorem add_mod_of_lt (k j c : Nat) (h : k % c + j < c) : (k + j) % c = k % c + j := by
  rw [Nat.add_mod, Nat.mod_eq_of_lt (show j < c by omega), Nat.mod_eq_of_lt h]

/-- The item after the last cell goes to the first one. -/
theorem add_mod_wrap (k c : Nat) (hc : 0 < c) : (k + (c - k % c)) % c = 0 := by
  have hlt := Nat.mod_lt k hc
  have hsum : k % c + (c - k % c) = c := by omega
  rw [← Nat.mod_add_mod, hsum, Nat.mod_self]

theorem mod_ne_of_near (k k' c : Nat) (hlt : k < k') (hnear : k' < k + c) : k % c ≠ k' % c := by
  intro heq
  have hdvd : c ∣ k' - k := Nat.dvd_of_mod_eq_zero (Nat.sub_mod_eq_zero_of_mod_eq heq.symm)
  have hzero : k' - k = 0 := Nat.eq_zero_of_dvd_of_lt hdvd (by omega)
  omega

/-- The ring holds the items from `lo` up to `hi` of `xs`. -/
def Mirrors (buf xs : List α) (lo hi : Nat) : Prop :=
  ∀ k, lo ≤ k → k < hi → buf[k % buf.length]? = xs[k]?

variable {buf xs : List α} {lo hi : Nat}

theorem Mirrors.mono (h : Mirrors buf xs lo hi) {lo' hi' : Nat} (hlo : lo ≤ lo')
    (hhi : hi' ≤ hi) : Mirrors buf xs lo' hi' :=
  fun k hk hk' => h k (Nat.le_trans hlo hk) (Nat.lt_of_lt_of_le hk' hhi)

/-- More items may follow those in the ring. -/
theorem Mirrors.append (h : Mirrors buf xs lo hi) (ys : List α) (hhi : hi ≤ xs.length) :
    Mirrors buf (xs ++ ys) lo hi := by
  intro k hk hk'
  rw [h k hk hk', List.getElem?_append_left (by omega)]

/-- A piece that ends before the last cell extends the window, as long as the window is no
longer than the ring. -/
theorem Mirrors.extend (h : Mirrors buf xs lo hi) (n : Nat) (hn : hi + n ≤ xs.length)
    (hpiece : hi % buf.length + n ≤ buf.length) (hroom : hi + n ≤ lo + buf.length) :
    Mirrors (overwrite buf (hi % buf.length) ((xs.drop hi).take n)) xs lo (hi + n) := by
  have hlen : ((xs.drop hi).take n).length = n := by
    rw [List.length_take, List.length_drop]
    omega
  intro k hk hk'
  rw [length_overwrite _ _ _ (by rw [hlen]; exact hpiece),
    getElem?_overwrite _ _ _ (by rw [hlen]; exact hpiece), hlen]
  by_cases hnew : hi ≤ k
  · obtain ⟨j, rfl⟩ := Nat.exists_eq_add_of_le hnew
    rw [add_mod_of_lt hi j buf.length (by omega), if_pos ⟨by omega, by omega⟩,
      List.getElem?_take_of_lt (by omega), List.getElem?_drop]
    congr 1
    omega
  · rw [if_neg, h k hk (by omega)]
    rintro ⟨hge, hlt⟩
    have hcell := add_mod_of_lt hi (k % buf.length - hi % buf.length) buf.length (by omega)
    refine mod_ne_of_near k (hi + (k % buf.length - hi % buf.length)) buf.length (by omega)
      (by omega) ?_
    omega

/-- A piece of the window is read from consecutive cells. -/
theorem Mirrors.piece (h : Mirrors buf xs lo hi) (start n : Nat) (hlo : lo ≤ start)
    (hhi : start + n ≤ hi) (hpiece : start % buf.length + n ≤ buf.length) :
    (buf.drop (start % buf.length)).take n = (xs.drop start).take n := by
  apply List.ext_getElem?
  intro j
  by_cases hj : j < n
  · have hcell := h (start + j) (by omega) (by omega)
    rw [add_mod_of_lt start j buf.length (by omega)] at hcell
    rw [List.getElem?_take_of_lt hj, List.getElem?_take_of_lt hj, List.getElem?_drop,
      List.getElem?_drop, hcell]
  · rw [List.getElem?_take_eq_none (by omega), List.getElem?_take_eq_none (by omega)]

end ShmIpc.Library
