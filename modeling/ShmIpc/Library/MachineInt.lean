import Mathlib.Algebra.Order.Ring.Int

/-!
Conversions to the two 32-bit integer types. Arithmetic in such a type is
arithmetic on integers with the conversion applied to the result, so a value is
known to survive an operation once the exact result is in range.
-/

namespace ShmIpc.Library

/-- Conversion to a signed 32-bit integer. -/
def int32 (n : Int) : Int := n.bmod (2 ^ 32)

/-- Conversion to an unsigned 32-bit integer. -/
def uint32 (n : Int) : Nat := (n % 2 ^ 32).toNat

def IsInt32 (n : Int) : Prop := -2 ^ 31 ≤ n ∧ n < 2 ^ 31

instance (n : Int) : Decidable (IsInt32 n) := inferInstanceAs (Decidable (_ ∧ _))

theorem int32_eq_self {n : Int} (h : IsInt32 n) : int32 n = n := by
  obtain ⟨hlow, hhigh⟩ := h
  exact Int.bmod_eq_of_le_mul_two (by push_cast; omega) (by push_cast; omega)

theorem isInt32_natCast {n : Nat} (h : n < 2 ^ 31) : IsInt32 n := ⟨by omega, by omega⟩

theorem int32_natCast {n : Nat} (h : n < 2 ^ 31) : int32 n = n :=
  int32_eq_self (isInt32_natCast h)

theorem uint32_natCast {n : Nat} (h : n < 2 ^ 32) : uint32 n = n := by
  unfold uint32
  omega

theorem uint32_sub {a b : Nat} (ha : a < 2 ^ 32) (hb : b ≤ a) : uint32 (a - b) = a - b := by
  unfold uint32
  omega

/-- The unsigned negation of a negative number is its absolute value, the least
signed integer included. -/
theorem uint32_neg {n : Int} (h : IsInt32 n) (hneg : n < 0) :
    uint32 (0 - uint32 n) = n.natAbs := by
  obtain ⟨hlow, _⟩ := h
  unfold uint32
  omega

theorem uint32_of_nonneg {n : Int} (h : IsInt32 n) (hpos : 0 ≤ n) : uint32 n = n.natAbs := by
  obtain ⟨_, hhigh⟩ := h
  unfold uint32
  omega

end ShmIpc.Library
