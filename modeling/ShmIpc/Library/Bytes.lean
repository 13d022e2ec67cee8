import Mathlib.Algebra.Order.Ring.Nat
import Mathlib.Tactic.Ring

/-!
Little-endian integers inside a byte string. A field is read at a fixed
position with a fixed width, so what it reads depends on those bytes alone and
is always below the width's bound.
-/

namespace ShmIpc.Library

def ofBytes : List UInt8 → Nat
  | [] => 0
  | b :: bs => b.toNat + 256 * ofBytes bs

def toBytes : Nat → Nat → List UInt8
  | 0, _ => []
  | width + 1, n => UInt8.ofNat n :: toBytes width (n / 256)

/-- The integer of `width` bytes found at position `off`. -/
def readField (bytes : List UInt8) (off width : Nat) : Nat :=
  ofBytes ((bytes.drop off).take width)

theorem length_toBytes (width n : Nat) : (toBytes width n).length = width := by
  induction width generalizing n with
  | zero => rfl
  | succ width ih => simp [toBytes, ih]

theorem ofBytes_lt (bs : List UInt8) : ofBytes bs < 256 ^ bs.length := by
  induction bs with
  | nil => simp [ofBytes]
  | cons b bs ih =>
    have hb : b.toNat < 256 := UInt8.toNat_lt b
    rw [ofBytes, List.length_cons, Nat.pow_succ]
    omega

theorem readField_lt (bytes : List UInt8) (off width : Nat) :
    readField bytes off width < 256 ^ width := by
  refine Nat.lt_of_lt_of_le (ofBytes_lt _) (Nat.pow_le_pow_right (by decide) ?_)
  simp

theorem ofBytes_toBytes (width n : Nat) (h : n < 256 ^ width) :
    ofBytes (toBytes width n) = n := by
  induction width generalizing n with
  | zero =>
    have hn : n = 0 := by simpa using h
    simp [toBytes, ofBytes, hn]
  | succ width ih =>
    have hq : n / 256 < 256 ^ width := by
      rw [Nat.div_lt_iff_lt_mul (by decide)]
      simpa only [Nat.pow_succ] using h
    rw [toBytes, ofBytes, ih _ hq, UInt8.toNat_ofNat']
    exact Nat.mod_add_div n 256

/-- A field is read back from the bytes it was put down as, whatever stands
before and after it. -/
theorem readField_append (front back : List UInt8) (width n : Nat) (h : n < 256 ^ width) :
    readField (front ++ toBytes width n ++ back) front.length width = n := by
  rw [readField, List.append_assoc, List.drop_left,
    List.take_append_of_le_length (by rw [length_toBytes]),
    List.take_of_length_le (by rw [length_toBytes]), ofBytes_toBytes width n h]

/-- A field inside the first `n` bytes does not see the rest. -/
theorem readField_take (bytes : List UInt8) (off width n : Nat) (h : off + width ≤ n) :
    readField (bytes.take n) off width = readField bytes off width := by
  rw [readField, List.drop_take, List.take_take, Nat.min_eq_left (by omega), readField]

end ShmIpc.Library
