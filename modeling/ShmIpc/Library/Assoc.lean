import Mathlib.Algebra.Order.Ring.Int
import Mathlib.Data.List.AList

/-!
Finite maps with one value type: how a size and a total weight move under
insertion and erasure, the restriction of a map to the entries that satisfy a
test, and the change of every value under its key.
-/

namespace ShmIpc.Library

/-- Finite maps from `κ` to one type. -/
abbrev Assoc (κ β : Type*) := AList fun _ : κ => β

variable {κ β : Type*}

def count (m : Assoc κ β) : Nat := m.entries.length

def weight (f : β → Nat) (m : Assoc κ β) : Nat :=
  (m.entries.map fun e => f e.2).sum

variable [DecidableEq κ]

theorem weight_insert (f : β → Nat) (m : Assoc κ β) (k : κ) (b : β) (h : k ∉ m) :
    weight f (m.insert k b) = f b + weight f m := by
  rw [weight, AList.entries_insert_of_notMem h, List.map_cons, List.sum_cons, weight]

theorem count_insert (m : Assoc κ β) (k : κ) (b : β) (h : k ∉ m) :
    count (m.insert k b) = count m + 1 := by
  rw [count, AList.entries_insert_of_notMem h, List.length_cons, count]

/-- An erased entry leaves the rest of the entry list as it was. -/
theorem entries_of_lookup (m : Assoc κ β) (k : κ) (b : β) (h : m.lookup k = some b) :
    ∃ front back, m.entries = front ++ ⟨k, b⟩ :: back ∧
      (m.erase k).entries = front ++ back := by
  have hk : k ∈ m.entries.keys := AList.lookup_isSome.mp (by rw [h]; rfl)
  obtain ⟨b', front, back, hfront, hm, herase⟩ := List.exists_of_kerase hk
  have hb : b' = b := by
    have hmem : b' ∈ m.lookup k :=
      (AList.mem_lookup_iff).mpr (by rw [hm]; simp)
    rw [h] at hmem
    exact (Option.mem_some_iff.mp hmem).symm
  subst hb
  exact ⟨front, back, hm, herase⟩

theorem weight_erase (f : β → Nat) (m : Assoc κ β) (k : κ) (b : β)
    (h : m.lookup k = some b) : weight f (m.erase k) + f b = weight f m := by
  obtain ⟨front, back, hm, herase⟩ := entries_of_lookup m k b h
  simp only [weight, hm, herase, List.map_append, List.map_cons, List.sum_append, List.sum_cons]
  omega

theorem count_erase (m : Assoc κ β) (k : κ) (b : β) (h : m.lookup k = some b) :
    count (m.erase k) + 1 = count m := by
  obtain ⟨front, back, hm, herase⟩ := entries_of_lookup m k b h
  simp only [count, hm, herase, List.length_append, List.length_cons]
  omega

/-- Maps with the same keys have the same size. -/
theorem count_eq_of_keys {γ : Type*} (m : Assoc κ β) (m' : Assoc κ γ)
    (h : ∀ k, (m.lookup k).isSome = (m'.lookup k).isSome) : count m = count m' := by
  have hperm : m.keys.Perm m'.keys := by
    rw [List.perm_ext_iff_of_nodup m.keys_nodup m'.keys_nodup]
    intro k
    have hk := h k
    rwa [Bool.eq_iff_iff, AList.lookup_isSome, AList.lookup_isSome] at hk
  simpa only [count, AList.keys, List.keys, List.length_map] using hperm.length_eq

theorem count_le_of_keys {γ : Type*} (m : Assoc κ β) (m' : Assoc κ γ)
    (h : ∀ k, (m.lookup k).isSome = true → (m'.lookup k).isSome = true) : count m ≤ count m' := by
  have hsub : m.keys ⊆ m'.keys := by
    intro k hk
    exact AList.lookup_isSome.mp (h k (AList.lookup_isSome.mpr hk))
  have hle := (List.subperm_of_subset m.keys_nodup hsub).length_le
  simpa only [count, AList.keys, List.keys, List.length_map] using hle

def keepIf (p : κ → β → Bool) (m : Assoc κ β) : Assoc κ β where
  entries := m.entries.filter fun e => p e.1 e.2
  nodupKeys := m.nodupKeys.sublist List.filter_sublist

theorem lookup_keepIf (p : κ → β → Bool) (m : Assoc κ β) (k : κ) :
    (keepIf p m).lookup k = (m.lookup k).filter (p k) := by
  apply Option.ext
  intro b
  rw [← Option.mem_def, AList.mem_lookup_iff, Option.filter_eq_some_iff, ← Option.mem_def,
    AList.mem_lookup_iff]
  simp [keepIf]

theorem keepIf_congr (p q : κ → β → Bool) (m : Assoc κ β)
    (h : ∀ k b, m.lookup k = some b → p k b = q k b) : keepIf p m = keepIf q m := by
  apply AList.ext
  apply List.filter_congr
  intro e he
  exact h e.1 e.2 (AList.mem_lookup_iff.mpr he)

theorem keepIf_eq_self (p : κ → β → Bool) (m : Assoc κ β)
    (h : ∀ k b, m.lookup k = some b → p k b = true) : keepIf p m = m := by
  apply AList.ext
  rw [keepIf, List.filter_eq_self]
  intro e he
  exact h e.1 e.2 (AList.mem_lookup_iff.mpr he)

theorem lookup_erase_eq (m : Assoc κ β) (k i : κ) :
    (m.erase k).lookup i = if i = k then none else m.lookup i := by
  split
  · next h => rw [h, AList.lookup_erase]
  · next h => exact AList.lookup_erase_ne h

theorem lookup_insert_eq (m : Assoc κ β) (k i : κ) (b : β) :
    (m.insert k b).lookup i = if i = k then some b else m.lookup i := by
  split
  · next h => rw [h, AList.lookup_insert]
  · next h => exact AList.lookup_insert_ne h

theorem count_erase_le (m : Assoc κ β) (k : κ) : count (m.erase k) ≤ count m := by
  cases hk : m.lookup k with
  | none =>
    rw [count_eq_of_keys (m.erase k) m]
    intro i
    rw [lookup_erase_eq]
    split
    · next hi => rw [hi, hk]
    · rfl
  | some b =>
    have hsize := count_erase m k b hk
    omega

/-- An insertion over an entry replaces it. -/
theorem count_insert_of_lookup {m : Assoc κ β} {k : κ} {b' : β} (hk : m.lookup k = some b')
    (b : β) : count (m.insert k b) = count m := by
  apply count_eq_of_keys
  intro i
  rw [lookup_insert_eq]
  split
  · next hi => rw [hi, hk]; rfl
  · rfl

theorem count_insert_le (m : Assoc κ β) (k : κ) (b : β) : count (m.insert k b) ≤ count m + 1 := by
  cases hk : m.lookup k with
  | none =>
    exact Nat.le_of_eq (count_insert m k b (AList.lookup_eq_none.mp hk))
  | some b' =>
    rw [count_insert_of_lookup hk b]
    exact Nat.le_succ _

omit [DecidableEq κ] in
theorem count_keepIf_le (p : κ → β → Bool) (m : Assoc κ β) : count (keepIf p m) ≤ count m :=
  List.length_filter_le _ _

section MapValues

variable {γ : Type*} (f : β → γ)

def mapValues (m : Assoc κ β) : Assoc κ γ where
  entries := m.entries.map (Sigma.map id fun _ => f)
  nodupKeys := m.nodupKeys.map₂ _

theorem lookup_mapValues (m : Assoc κ β) (k : κ) :
    (mapValues f m).lookup k = (m.lookup k).map f :=
  List.dlookup_map₂ k

omit [DecidableEq κ] in
theorem count_mapValues (m : Assoc κ β) : count (mapValues f m) = count m := by
  simp only [count, mapValues, List.length_map]

theorem mapValues_erase (m : Assoc κ β) (k : κ) :
    mapValues f (m.erase k) = (mapValues f m).erase k := by
  apply AList.ext
  change (m.entries.kerase k).map _ = (m.entries.map _).kerase k
  simp only [List.kerase, List.eraseP_map]
  rfl

theorem mapValues_insert (m : Assoc κ β) (k : κ) (b : β) :
    mapValues f (m.insert k b) = (mapValues f m).insert k (f b) := by
  apply AList.ext
  have herase := congrArg AList.entries (mapValues_erase f m k)
  exact congrArg (List.cons ⟨k, f b⟩) herase

omit [DecidableEq κ] in
theorem mapValues_keepIf (p : κ → β → Bool) (q : κ → γ → Bool) (m : Assoc κ β)
    (h : ∀ k b, q k (f b) = p k b) : mapValues f (keepIf p m) = keepIf q (mapValues f m) := by
  apply AList.ext
  simp only [mapValues, keepIf, List.filter_map]
  congr 1
  apply List.filter_congr
  intro e _
  exact (h e.1 e.2).symm

end MapValues

end ShmIpc.Library
