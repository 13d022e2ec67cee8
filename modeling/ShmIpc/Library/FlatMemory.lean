import Mathlib.Data.List.Basic
import ShmIpc.Library.Placement

/-!
Copies between two regions of a flat memory. Only some addresses are mapped, and an
access to any other address fails; every access that succeeds is logged. What code may
touch is therefore seen twice: it has to succeed whatever is mapped around its regions,
and its log has to stay inside them.

A copy is described by its effect. Windows that cover a region may be copied one after
the other in place of the region, even if they overlap, because none of these copies
writes to the source.
-/

namespace ShmIpc.Library

inductive Access
  | load (addr len : Nat)
  | store (addr len : Nat)
  deriving DecidableEq

/-- Loads in the `n` bytes at `s`, stores in the `n` bytes at `d`. -/
def Access.Within (d s n : Nat) : Access → Prop
  | .load addr len => s ≤ addr ∧ addr + len ≤ s + n
  | .store addr len => d ≤ addr ∧ addr + len ≤ d + n

theorem Access.Within.widen {d s n k w : Nat} (hw : k + w ≤ n) {x : Access}
    (h : x.Within (d + k) (s + k) w) : x.Within d s n := by
  cases x with
  | load addr len | store addr len =>
    obtain ⟨hlow, hhigh⟩ := h
    exact ⟨by omega, by omega⟩

/-- Regions of `n` bytes without a common address. -/
def Apart (d s n : Nat) : Prop := d + n ≤ s ∨ s + n ≤ d

instance (d s n : Nat) : Decidable (Apart d s n) := inferInstanceAs (Decidable (_ ∨ _))

theorem Apart.window {d s n k w : Nat} (h : Apart d s n) (hw : k + w ≤ n) :
    Apart (d + k) (s + k) w := by
  cases h with
  | inl hbelow => exact Or.inl (by omega)
  | inr habove => exact Or.inr (by omega)

structure FlatMemory (α : Type) where
  bytes : Nat → Option α
  log : List Access

namespace FlatMemory

variable {α : Type} {m m' m₁ m₂ : FlatMemory α} {d s n k w : Nat}

def Mapped (m : FlatMemory α) (addr n : Nat) : Prop :=
  ∀ i, i < n → (m.bytes (addr + i)).isSome = true

instance (m : FlatMemory α) (addr n : Nat) : Decidable (m.Mapped addr n) :=
  inferInstanceAs (Decidable (∀ i, i < n → _))

theorem Mapped.window {addr : Nat} (h : m.Mapped addr n) (hw : k + w ≤ n) :
    m.Mapped (addr + k) w := by
  intro i hi
  rw [Nat.add_assoc]
  exact h (k + i) (by omega)

/-- `n` bytes are loaded at `s` and stored at `d`. -/
def transfer (d s n : Nat) (m : FlatMemory α) : FlatMemory α where
  bytes addr := if d ≤ addr ∧ addr < d + n then m.bytes (s + (addr - d)) else m.bytes addr
  log := m.log ++ [.load s n, .store d n]

/-- The contract of `memcpy`. It promises nothing for regions that overlap. -/
def memcpy (d s n : Nat) (m : FlatMemory α) : Option (FlatMemory α) :=
  if Apart d s n ∧ m.Mapped s n ∧ m.Mapped d n then some (m.transfer d s n) else none

def assign (d s : Nat) (m : FlatMemory α) : Option (FlatMemory α) :=
  if m.Mapped s 1 ∧ m.Mapped d 1 then some (m.transfer d s 1) else none

/-- The effect of a copy of `n` bytes from `s` to `d`. -/
structure Copied (d s n : Nat) (m m' : FlatMemory α) : Prop where
  bytes : ∀ i, i < n → m'.bytes (d + i) = m.bytes (s + i)
  frame : ∀ addr, addr < d ∨ d + n ≤ addr → m'.bytes addr = m.bytes addr
  accesses : ∃ new, m'.log = m.log ++ new ∧ ∀ x ∈ new, x.Within d s n

theorem copied_transfer (d s n : Nat) (m : FlatMemory α) : Copied d s n m (m.transfer d s n) where
  bytes i hi := by
    simp only [transfer]
    rw [if_pos ⟨Nat.le_add_right d i, Nat.add_lt_add_left hi d⟩, Nat.add_sub_cancel_left]
  frame addr houtside := if_neg (by omega)
  accesses := by
    refine ⟨[.load s n, .store d n], rfl, ?_⟩
    intro x hx
    rw [List.mem_pair] at hx
    cases hx with
    | inl hload =>
      rw [hload]
      exact ⟨Nat.le_refl s, Nat.le_refl (s + n)⟩
    | inr hstore =>
      rw [hstore]
      exact ⟨Nat.le_refl d, Nat.le_refl (d + n)⟩

theorem copied_zero (d s : Nat) (m : FlatMemory α) : Copied d s 0 m m where
  bytes i hi := absurd hi (Nat.not_lt_zero i)
  frame _ _ := rfl
  accesses := ⟨[], (List.append_nil _).symm, fun _ hx => absurd hx List.not_mem_nil⟩

theorem exists_memcpy (hapart : Apart d s n) (hsrc : m.Mapped s n) (hdst : m.Mapped d n) :
    ∃ m', memcpy d s n m = some m' ∧ Copied d s n m m' :=
  ⟨m.transfer d s n, if_pos ⟨hapart, hsrc, hdst⟩, copied_transfer d s n m⟩

theorem exists_assign (hsrc : m.Mapped s 1) (hdst : m.Mapped d 1) :
    ∃ m', assign d s m = some m' ∧ Copied d s 1 m m' :=
  ⟨m.transfer d s 1, if_pos ⟨hsrc, hdst⟩, copied_transfer d s 1 m⟩

namespace Copied

theorem mapped (h : Copied d s n m m') (hsrc : m.Mapped s n) {addr len : Nat}
    (hmapped : m.Mapped addr len) : m'.Mapped addr len := by
  intro i hi
  by_cases hinside : d ≤ addr + i ∧ addr + i < d + n
  · have hbyte := h.bytes (addr + i - d) (by omega)
    rw [Nat.add_sub_of_le hinside.1] at hbyte
    rw [hbyte]
    exact hsrc _ (by omega)
  · rw [h.frame (addr + i) (by omega)]
    exact hmapped i hi

/-- The effect of a copy determines what is in memory after it. -/
theorem bytes_eq (h₁ : Copied d s n m m₁) (h₂ : Copied d s n m m₂) : m₁.bytes = m₂.bytes := by
  funext addr
  by_cases hinside : d ≤ addr ∧ addr < d + n
  · have hbyte₁ := h₁.bytes (addr - d) (by omega)
    have hbyte₂ := h₂.bytes (addr - d) (by omega)
    rw [Nat.add_sub_of_le hinside.1] at hbyte₁ hbyte₂
    rw [hbyte₁, hbyte₂]
  · rw [h₁.frame addr (by omega), h₂.frame addr (by omega)]

/-- Two windows that cover the region. -/
theorem cover {p v q : Nat} (hapart : Apart d s n) (hv : p + v ≤ n) (hw : q + w ≤ n)
    (hcover : ∀ i, i < n → p ≤ i ∧ i < p + v ∨ q ≤ i ∧ i < q + w)
    (hfirst : Copied (d + p) (s + p) v m m₁) (hsecond : Copied (d + q) (s + q) w m₁ m₂) :
    Copied d s n m m₂ where
  bytes i hi := by
    by_cases hinside : q ≤ i ∧ i < q + w
    · have hbyte := hsecond.bytes (i - q) (by omega)
      have hkept : m₁.bytes (s + i) = m.bytes (s + i) := by
        apply hfirst.frame
        cases hapart with
        | inl hbelow => exact Or.inr (by omega)
        | inr habove => exact Or.inl (by omega)
      rw [Nat.add_assoc, Nat.add_assoc, Nat.add_sub_of_le hinside.1] at hbyte
      exact hbyte.trans hkept
    · have hhead := (hcover i hi).resolve_right hinside
      have hbyte := hfirst.bytes (i - p) (by omega)
      rw [Nat.add_assoc, Nat.add_assoc, Nat.add_sub_of_le hhead.1] at hbyte
      rw [hsecond.frame (d + i) (by omega)]
      exact hbyte
  frame addr houtside := by
    rw [hsecond.frame addr (by omega)]
    exact hfirst.frame addr (by omega)
  accesses := by
    obtain ⟨new₁, hlog₁, hwithin₁⟩ := hfirst.accesses
    obtain ⟨new₂, hlog₂, hwithin₂⟩ := hsecond.accesses
    refine ⟨new₁ ++ new₂, by rw [hlog₂, hlog₁, List.append_assoc], ?_⟩
    intro x hx
    cases List.mem_append.mp hx with
    | inl hold => exact (hwithin₁ x hold).widen hv
    | inr hnew => exact (hwithin₂ x hnew).widen hw

end Copied

def HoldsAt (m : FlatMemory α) (addr : Nat) (buf : List α) : Prop :=
  ∀ i, i < buf.length → m.bytes (addr + i) = buf[i]?

namespace HoldsAt

variable {addr off : Nat} {buf src : List α}

theorem mapped (h : m.HoldsAt addr buf) (hroom : off + n ≤ buf.length) :
    m.Mapped (addr + off) n := by
  intro i hi
  have hlt : off + i < buf.length := by omega
  rw [Nat.add_assoc, h (off + i) hlt, List.getElem?_eq_getElem hlt]
  rfl

theorem drop (h : m.HoldsAt addr buf) (off : Nat) : m.HoldsAt (addr + off) (buf.drop off) := by
  intro i hi
  rw [List.length_drop] at hi
  rw [List.getElem?_drop, Nat.add_assoc]
  exact h (off + i) (by omega)

/-- A copy into the middle of a buffer overwrites it there. -/
theorem copied (hbuf : m.HoldsAt addr buf) (hsrc : m.HoldsAt s src)
    (hroom : off + n ≤ buf.length) (hlen : n ≤ src.length) (h : Copied (addr + off) s n m m') :
    m'.HoldsAt addr (overwrite buf off (src.take n)) := by
  have htake : (src.take n).length = n := by rw [List.length_take, Nat.min_eq_left hlen]
  have hfits : off + (src.take n).length ≤ buf.length := by rw [htake]; exact hroom
  intro i hi
  rw [length_overwrite buf off _ hfits] at hi
  rw [getElem?_overwrite buf off _ hfits, htake]
  by_cases hinside : off ≤ i ∧ i < off + n
  · have hbyte := h.bytes (i - off) (by omega)
    rw [Nat.add_assoc, Nat.add_sub_of_le hinside.1] at hbyte
    rw [if_pos hinside, hbyte, hsrc (i - off) (by omega), List.getElem?_take_of_lt (by omega)]
  · rw [if_neg hinside, h.frame (addr + i) (by omega)]
    exact hbuf i hi

end HoldsAt

end FlatMemory

end ShmIpc.Library
