import Mathlib.Algebra.BigOperators.Group.Finset.Basic
import Mathlib.Algebra.Order.BigOperators.Group.Finset

/-!
Writes at absolute positions into a buffer of fixed length, and families of
blocks that tile it. Nothing here assumes that writes are disjoint: a byte is
known after a sequence of writes only where exactly one of them covers it, and
a tiling is the case where every byte is covered exactly once. The order in
which the blocks of a tiling are written therefore does not matter.
-/

namespace ShmIpc.Library

variable {α : Type*}

def overwrite (buf : List α) (off : Nat) (data : List α) : List α :=
  buf.take off ++ data ++ buf.drop (off + data.length)

theorem length_overwrite (buf : List α) (off : Nat) (data : List α)
    (h : off + data.length ≤ buf.length) :
    (overwrite buf off data).length = buf.length := by
  simp only [overwrite, List.length_append, List.length_take, List.length_drop]
  omega

theorem overwrite_nil (buf : List α) (off : Nat) : overwrite buf off [] = buf := by
  simp [overwrite]

theorem getElem?_overwrite (buf : List α) (off : Nat) (data : List α)
    (h : off + data.length ≤ buf.length) (x : Nat) :
    (overwrite buf off data)[x]? =
      if off ≤ x ∧ x < off + data.length then data[x - off]? else buf[x]? := by
  have hoff : (buf.take off).length = off := by
    rw [List.length_take]; omega
  by_cases hlow : x < off
  · rw [if_neg (by omega), overwrite, List.append_assoc,
      List.getElem?_append_left (by omega), List.getElem?_take_of_lt hlow]
  · rw [overwrite, List.append_assoc, List.getElem?_append_right (by omega), hoff]
    by_cases hhigh : x < off + data.length
    · rw [if_pos ⟨by omega, hhigh⟩, List.getElem?_append_left (by omega)]
    · rw [if_neg (by omega), List.getElem?_append_right (by omega), List.getElem?_drop]
      congr 1
      omega

theorem take_overwrite (buf : List α) (off : Nat) (data : List α) (h : off ≤ buf.length) :
    (overwrite buf off data).take (off + data.length) = buf.take off ++ data := by
  apply List.take_left'
  rw [List.length_append, List.length_take, Nat.min_eq_left h]

theorem isPrefix_overwrite_zero (buf data : List α) : data <+: overwrite buf 0 data := by
  simp [overwrite]

theorem isSuffix_overwrite_last (buf data : List α) (h : data.length ≤ buf.length) :
    data <:+ overwrite buf (buf.length - data.length) data := by
  rw [overwrite, List.drop_eq_nil_of_le (by omega), List.append_nil]
  exact List.suffix_append _ _

theorem overwrite_all (buf data : List α) (h : buf.length = data.length) :
    overwrite buf 0 data = data := by
  simp [overwrite, h]

/-- Two writes of `w` bytes, one at each end of a block, write the whole block as soon
as they meet. -/
theorem overwrite_ends (buf : List α) (off : Nat) (data : List α) (w : Nat)
    (h : off + data.length ≤ buf.length) (hw : w ≤ data.length) (hmeet : data.length ≤ 2 * w) :
    overwrite (overwrite buf off (data.take w)) (off + (data.length - w))
      (data.drop (data.length - w)) = overwrite buf off data := by
  have htake : (data.take w).length = w := by simp only [List.length_take]; omega
  have hdrop : (data.drop (data.length - w)).length = w := by simp only [List.length_drop]; omega
  have hfirst : (overwrite buf off (data.take w)).length = buf.length :=
    length_overwrite buf off (data.take w) (by omega)
  apply List.ext_getElem?
  intro x
  rw [getElem?_overwrite _ _ _ (by omega), getElem?_overwrite _ _ _ (by omega),
    getElem?_overwrite _ _ _ h, htake, hdrop]
  by_cases hlast : off + (data.length - w) ≤ x ∧ x < off + (data.length - w) + w
  · rw [if_pos hlast, if_pos (by omega), List.getElem?_drop]
    congr 1
    omega
  · rw [if_neg hlast]
    by_cases hhead : off ≤ x ∧ x < off + w
    · rw [if_pos hhead, if_pos (by omega), List.getElem?_take_of_lt (by omega)]
    · rw [if_neg hhead, if_neg (by omega)]

/-- A copy into `out` from `off` on which stops at the end of either side. -/
def copyAt (out : List α) (off : Nat) (src : List α) : List α :=
  overwrite out off (src.take (out.length - off))

theorem copyAt_eq (out : List α) (off : Nat) (src : List α) (h : off + src.length ≤ out.length) :
    copyAt out off src = overwrite out off src := by
  rw [copyAt, List.take_of_length_le (by omega)]

/-- A write is a start position with the block put there. -/
def Covers (w : Nat × List α) (x : Nat) : Prop :=
  w.1 ≤ x ∧ x < w.1 + w.2.length

def applyWrites (buf : List α) (ws : List (Nat × List α)) : List α :=
  ws.foldl (fun b w => overwrite b w.1 w.2) buf

theorem applyWrites_append_one (buf : List α) (ws : List (Nat × List α))
    (w : Nat × List α) :
    applyWrites buf (ws ++ [w]) = overwrite (applyWrites buf ws) w.1 w.2 := by
  simp [applyWrites]

theorem length_applyWrites (buf : List α) (ws : List (Nat × List α))
    (h : ∀ w ∈ ws, w.1 + w.2.length ≤ buf.length) :
    (applyWrites buf ws).length = buf.length := by
  induction ws using List.reverseRecOn with
  | nil => rfl
  | append_singleton ws w ih =>
    have hws := ih fun v hv => h v (by simp [hv])
    rw [applyWrites_append_one, length_overwrite, hws]
    rw [hws]
    exact h w (by simp)

/-- A byte that no write covers keeps its initial value. -/
theorem getElem?_applyWrites_untouched (buf : List α) (ws : List (Nat × List α))
    (h : ∀ w ∈ ws, w.1 + w.2.length ≤ buf.length) (x : Nat)
    (hx : ∀ w ∈ ws, ¬ Covers w x) :
    (applyWrites buf ws)[x]? = buf[x]? := by
  induction ws using List.reverseRecOn with
  | nil => rfl
  | append_singleton ws w ih =>
    have hb : ∀ v ∈ ws, v.1 + v.2.length ≤ buf.length := fun v hv => h v (by simp [hv])
    have hlen := length_applyWrites buf ws hb
    have hw : ¬ (w.1 ≤ x ∧ x < w.1 + w.2.length) := hx w (by simp)
    rw [applyWrites_append_one, getElem?_overwrite _ _ _ (by rw [hlen]; exact h w (by simp)),
      if_neg hw]
    exact ih hb fun v hv => hx v (by simp [hv])

/-- Where exactly one write covers a byte, that write decides it, whatever was
written around it and in which order. -/
theorem getElem?_applyWrites_of_unique (buf : List α) (ws : List (Nat × List α))
    (h : ∀ w ∈ ws, w.1 + w.2.length ≤ buf.length) (x : Nat)
    (w : Nat × List α) (hw : w ∈ ws) (hx : Covers w x)
    (unique : ∀ v ∈ ws, Covers v x → v = w) :
    (applyWrites buf ws)[x]? = w.2[x - w.1]? := by
  induction ws using List.reverseRecOn with
  | nil => simp at hw
  | append_singleton ws v ih =>
    have hb : ∀ u ∈ ws, u.1 + u.2.length ≤ buf.length := fun u hu => h u (by simp [hu])
    have hlen := length_applyWrites buf ws hb
    rw [applyWrites_append_one, getElem?_overwrite _ _ _ (by rw [hlen]; exact h v (by simp))]
    by_cases hv : v.1 ≤ x ∧ x < v.1 + v.2.length
    · rw [if_pos hv, unique v (by simp) hv]
    · rw [if_neg hv]
      apply ih hb
      · rcases List.mem_append.mp hw with hmem | hmem
        · exact hmem
        · rw [List.mem_singleton] at hmem
          subst hmem
          exact absurd hx hv
      · exact fun u hu => unique u (by simp [hu])

section Tiling

/-- Where block `i` of a family starts when the blocks are laid end to end. -/
def startOf (p : Nat → List α) (i : Nat) : Nat :=
  ∑ l ∈ Finset.range i, (p l).length

def concat (p : Nat → List α) (n : Nat) : List α :=
  (List.range n).flatMap p

theorem startOf_succ (p : Nat → List α) (i : Nat) :
    startOf p (i + 1) = startOf p i + (p i).length :=
  Finset.sum_range_succ _ _

theorem startOf_mono (p : Nat → List α) {i j : Nat} (h : i ≤ j) :
    startOf p i ≤ startOf p j :=
  Finset.sum_le_sum_of_subset (Finset.range_mono h)

theorem startOf_congr (p q : Nat → List α) (n : Nat)
    (h : ∀ i, i < n → p i = q i) : startOf p n = startOf q n :=
  Finset.sum_congr rfl fun i hi => by rw [h i (Finset.mem_range.mp hi)]

theorem concat_succ (p : Nat → List α) (n : Nat) :
    concat p (n + 1) = concat p n ++ p n := by
  simp [concat, List.range_succ]

theorem length_concat (p : Nat → List α) (n : Nat) :
    (concat p n).length = startOf p n := by
  induction n with
  | zero => rfl
  | succ n ih => rw [concat_succ, List.length_append, ih, startOf_succ]

theorem concat_congr (p q : Nat → List α) (n : Nat)
    (h : ∀ i, i < n → p i = q i) : concat p n = concat q n := by
  induction n with
  | zero => rfl
  | succ n ih =>
    rw [concat_succ, concat_succ, ih fun i hi => h i (by omega), h n (by omega)]

/-- Every position below the total length lies in one of the blocks. -/
theorem exists_block (p : Nat → List α) (n x : Nat) (hx : x < startOf p n) :
    ∃ i, i < n ∧ startOf p i ≤ x ∧ x < startOf p i + (p i).length := by
  induction n with
  | zero => simp [startOf] at hx
  | succ n ih =>
    by_cases h : x < startOf p n
    · obtain ⟨i, hi, hlow, hhigh⟩ := ih h
      exact ⟨i, by omega, hlow, hhigh⟩
    · rw [startOf_succ] at hx
      exact ⟨n, by omega, by omega, hx⟩

/-- Blocks laid end to end do not overlap. -/
theorem block_unique (p : Nat → List α) (i j x : Nat)
    (hi : startOf p i ≤ x ∧ x < startOf p i + (p i).length)
    (hj : startOf p j ≤ x ∧ x < startOf p j + (p j).length) : i = j := by
  rcases Nat.lt_trichotomy i j with h | h | h
  · have hle := startOf_mono p (show i + 1 ≤ j from h)
    rw [startOf_succ] at hle
    omega
  · exact h
  · have hle := startOf_mono p (show j + 1 ≤ i from h)
    rw [startOf_succ] at hle
    omega

theorem getElem?_concat (p : Nat → List α) (n i x : Nat) (hi : i < n)
    (hx : startOf p i ≤ x ∧ x < startOf p i + (p i).length) :
    (concat p n)[x]? = (p i)[x - startOf p i]? := by
  induction n with
  | zero => omega
  | succ n ih =>
    rw [concat_succ]
    by_cases h : i = n
    · subst h
      rw [List.getElem?_append_right (by rw [length_concat]; exact hx.1), length_concat]
    · have hle := startOf_mono p (show i + 1 ≤ n by omega)
      rw [startOf_succ] at hle
      rw [List.getElem?_append_left (by rw [length_concat]; omega)]
      exact ih (by omega)

/-- Blocks that tile the buffer, each written at its own start and in any
order, leave exactly their concatenation. -/
theorem applyWrites_tiling (buf : List α) (ws : List (Nat × List α))
    (p : Nat → List α) (n : Nat) (hlen : buf.length = startOf p n)
    (sound : ∀ w ∈ ws, ∃ i, i < n ∧ w = (startOf p i, p i))
    (complete : ∀ i, i < n → (startOf p i, p i) ∈ ws) :
    applyWrites buf ws = concat p n := by
  have inside : ∀ w ∈ ws, w.1 + w.2.length ≤ buf.length := by
    intro w hw
    obtain ⟨i, hi, rfl⟩ := sound w hw
    have hle := startOf_mono p (show i + 1 ≤ n from hi)
    rw [startOf_succ] at hle
    simpa only [hlen] using hle
  apply List.ext_getElem?
  intro x
  by_cases hx : x < startOf p n
  · obtain ⟨i, hi, hcover⟩ := exists_block p n x hx
    rw [getElem?_concat p n i x hi hcover]
    apply getElem?_applyWrites_of_unique buf ws inside x _ (complete i hi) hcover
    intro v hv hvx
    obtain ⟨j, _, rfl⟩ := sound v hv
    rw [block_unique p j i x hvx hcover]
  · rw [List.getElem?_eq_none, List.getElem?_eq_none]
    · rw [length_concat]; omega
    · rw [length_applyWrites buf ws inside]; omega

end Tiling

/-- Writes one behind the other, from `off` on. -/
def Stacked : Nat → List (Nat × List α) → Prop
  | _, [] => True
  | off, w :: ws => w.1 = off ∧ Stacked (off + w.2.length) ws

theorem drop_overwrite (buf : List α) (off : Nat) (data : List α) (n : Nat)
    (hlen : off + data.length ≤ buf.length) (hn : off + data.length ≤ n) :
    (overwrite buf off data).drop n = buf.drop n := by
  have hfront : (buf.take off ++ data).length = off + data.length := by
    rw [List.length_append, List.length_take, Nat.min_eq_left (by omega)]
  rw [overwrite, List.drop_append, List.drop_eq_nil_of_le (by omega), List.nil_append,
    List.drop_drop, hfront]
  congr 1
  omega

/-- Stacked writes leave their blocks in a row, and the rest of the buffer as it was. -/
theorem applyWrites_stacked (buf : List α) (off : Nat) (ws : List (Nat × List α))
    (h : Stacked off ws) (hlen : off + (ws.map Prod.snd).flatten.length ≤ buf.length) :
    applyWrites buf ws = buf.take off ++ (ws.map Prod.snd).flatten ++
      buf.drop (off + (ws.map Prod.snd).flatten.length) := by
  induction ws generalizing buf off with
  | nil =>
    rw [List.map_nil, List.flatten_nil, List.append_nil]
    exact (List.take_append_drop off buf).symm
  | cons w ws ih =>
    obtain ⟨rfl, hws⟩ := h
    rw [List.map_cons, List.flatten_cons, List.length_append, ← Nat.add_assoc] at hlen
    have hroom : w.1 + w.2.length ≤ buf.length := by omega
    have hrest := ih (overwrite buf w.1 w.2) (w.1 + w.2.length) hws
      (by rw [length_overwrite buf w.1 w.2 hroom]; exact hlen)
    rw [take_overwrite buf w.1 w.2 (by omega), drop_overwrite buf w.1 w.2 _ hroom (by omega)]
      at hrest
    rw [List.map_cons, List.flatten_cons, List.length_append, ← Nat.add_assoc]
    exact hrest.trans (by rw [List.append_assoc (buf.take w.1)])

end ShmIpc.Library
