import ShmIpc.Library.Placement

/-!
A list cut into consecutive blocks of one width, the last one possibly shorter.
-/

namespace ShmIpc.Library

variable {α : Type*}

/-- The `i`-th block of width `w`. -/
def block (l : List α) (w i : Nat) : List α := (l.drop (i * w)).take w

theorem length_block (l : List α) (w i : Nat) :
    (block l w i).length = min w (l.length - i * w) := by
  simp [block]

theorem startOf_block (l : List α) (w i : Nat) :
    startOf (block l w) i = min (i * w) l.length := by
  induction i with
  | zero => simp [startOf]
  | succ i ih =>
    rw [startOf_succ, ih, length_block, Nat.succ_mul]
    omega

theorem concat_block (l : List α) (w n : Nat) : concat (block l w) n = l.take (n * w) := by
  induction n with
  | zero => simp [concat]
  | succ n ih =>
    rw [concat_succ, ih, block, Nat.succ_mul, List.take_add]

def blockCount (size w : Nat) : Nat := (size + w - 1) / w

theorem le_blockCount_mul (size w : Nat) (hw : 0 < w) : size ≤ blockCount size w * w := by
  have h := Nat.lt_div_mul_add hw (a := size + w - 1)
  simp only [blockCount]
  omega

theorem lt_blockCount_iff (size w i : Nat) (hw : 0 < w) :
    i < blockCount size w ↔ i * w < size := by
  rw [blockCount, Nat.lt_iff_add_one_le, Nat.le_div_iff_mul_le hw, Nat.succ_mul]
  omega

theorem concat_block_all (l : List α) (w : Nat) (hw : 0 < w) :
    concat (block l w) (blockCount l.length w) = l := by
  rw [concat_block, List.take_of_length_le (le_blockCount_mul l.length w hw)]

theorem startOf_block_all (l : List α) (w : Nat) (hw : 0 < w) :
    startOf (block l w) (blockCount l.length w) = l.length := by
  rw [startOf_block, Nat.min_eq_right (le_blockCount_mul l.length w hw)]

end ShmIpc.Library
