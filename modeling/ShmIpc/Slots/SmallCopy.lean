import ShmIpc.Library.FlatMemory
import ShmIpc.Slots.SizeField

/-!
`Platform::CopySmall` at the level of addresses. Up to 256 bytes it copies two windows of
a fixed width, one at each end of the region, which overlap unless the length is twice the
width. The regions do not wrap around the end of the address space, so an address is a
natural number.

The functions that place a payload in a slot and take it out again work with the areas as
lists of bytes; they see the same copy.
-/

namespace ShmIpc.Slots.Cpp.Platform

open Library FlatMemory

/-- `memcpy(d, s, w); memcpy(d + n - w, s + n - w, w)`. -/
def copyEnds (d s n w : Nat) (m : FlatMemory UInt8) : Option (FlatMemory UInt8) := do
  let m ← memcpy d s w m
  memcpy (d + n - w) (s + n - w) w m

def copySmall (d s n : Nat) (m : FlatMemory UInt8) : Option (FlatMemory UInt8) :=
  if 16 ≤ n then
    if n ≤ 32 then copyEnds d s n 16 m
    else if n ≤ 64 then copyEnds d s n 32 m
    else if n ≤ 128 then copyEnds d s n 64 m
    else if n ≤ 256 then copyEnds d s n 128 m
    else memcpy d s n m
  else if 8 ≤ n then copyEnds d s n 8 m
  else if 4 ≤ n then copyEnds d s n 4 m
  else if 2 ≤ n then copyEnds d s n 2 m
  else if n = 1 then assign d s m
  else some m

section Copy

variable {d s n w : Nat} {m : FlatMemory UInt8}

theorem exists_copyEnds (hw : w ≤ n) (hmeet : n ≤ 2 * w) (hapart : Apart d s n)
    (hsrc : m.Mapped s n) (hdst : m.Mapped d n) :
    ∃ m', copyEnds d s n w m = some m' ∧ Copied d s n m m' := by
  have hhead : 0 + w ≤ n := by omega
  have htail : n - w + w ≤ n := by omega
  obtain ⟨m₁, hfirst, hcopied₁⟩ :=
    exists_memcpy (hapart.window hhead) (hsrc.window hhead) (hdst.window hhead)
  have hsrc₁ := hcopied₁.mapped (hsrc.window hhead) hsrc
  have hdst₁ := hcopied₁.mapped (hsrc.window hhead) hdst
  obtain ⟨m₂, hsecond, hcopied₂⟩ :=
    exists_memcpy (hapart.window htail) (hsrc₁.window htail) (hdst₁.window htail)
  refine ⟨m₂, ?_, Copied.cover hapart hhead htail ?_ hcopied₁ hcopied₂⟩
  · rw [Nat.add_zero, Nat.add_zero] at hfirst
    rw [copyEnds, hfirst, Nat.add_sub_assoc hw, Nat.add_sub_assoc hw]
    exact hsecond
  · intro i hi
    omega

theorem exists_copySmall (hapart : Apart d s n) (hsrc : m.Mapped s n) (hdst : m.Mapped d n) :
    ∃ m', copySmall d s n m = some m' ∧ Copied d s n m m' := by
  unfold copySmall
  split
  case isTrue hlarge =>
    split
    case isTrue h => exact exists_copyEnds hlarge h hapart hsrc hdst
    split
    case isTrue h => exact exists_copyEnds (by omega) h hapart hsrc hdst
    split
    case isTrue h => exact exists_copyEnds (by omega) h hapart hsrc hdst
    split
    case isTrue h => exact exists_copyEnds (by omega) h hapart hsrc hdst
    exact exists_memcpy hapart hsrc hdst
  case isFalse hsmall =>
    split
    case isTrue h => exact exists_copyEnds h (by omega) hapart hsrc hdst
    split
    case isTrue h => exact exists_copyEnds h (by omega) hapart hsrc hdst
    split
    case isTrue h => exact exists_copyEnds h (by omega) hapart hsrc hdst
    split
    case isTrue hone =>
      subst hone
      exact exists_assign hsrc hdst
    case isFalse hzero =>
      have hnone : n = 0 := by omega
      subst hnone
      exact ⟨m, rfl, copied_zero d s m⟩

end Copy

/-- `CopySmall` is `memcpy`. It is defined whenever the two regions are mapped and apart,
whatever is mapped around them; it leaves the bytes of the source in the destination and
every other byte as it was, and all its loads and stores are inside the regions. -/
theorem copySmall_is_memcpy (d s n : Nat) (m : FlatMemory UInt8) (hapart : Apart d s n)
    (hsrc : m.Mapped s n) (hdst : m.Mapped d n) :
    ∃ m', copySmall d s n m = some m' ∧
      (∀ i, i < n → m'.bytes (d + i) = m.bytes (s + i)) ∧
      (∀ addr, addr < d ∨ d + n ≤ addr → m'.bytes addr = m.bytes addr) ∧
      (∃ new, m'.log = m.log ++ new ∧
        (∀ addr len, .load addr len ∈ new → s ≤ addr ∧ addr + len ≤ s + n) ∧
        ∀ addr len, .store addr len ∈ new → d ≤ addr ∧ addr + len ≤ d + n) ∧
      (memcpy d s n m).map FlatMemory.bytes = some m'.bytes := by
  obtain ⟨m', hcopy, hcopied⟩ := exists_copySmall hapart hsrc hdst
  obtain ⟨m'', hmemcpy, hcopied'⟩ := exists_memcpy hapart hsrc hdst
  obtain ⟨new, hlog, hwithin⟩ := hcopied.accesses
  refine ⟨m', hcopy, hcopied.bytes, hcopied.frame, ⟨new, hlog, ?_, ?_⟩, ?_⟩
  · intro addr len hload
    exact hwithin _ hload
  · intro addr len hstore
    exact hwithin _ hstore
  · rw [hmemcpy, Option.map_some, hcopied'.bytes_eq hcopied]

/-- Nineteen bytes, with nothing mapped but the two regions: the windows of sixteen bytes
overlap in thirteen. -/
theorem copySmall_is_memcpy_nineteen :
    let m : FlatMemory UInt8 :=
      ⟨fun addr => if addr < 19 then some (UInt8.ofNat addr)
        else if 40 ≤ addr ∧ addr < 59 then some 0 else none, []⟩
    ∃ m', copySmall 40 0 19 m = some m' ∧ m'.bytes 40 = some 0 ∧ m'.bytes 58 = some 18 ∧
      m'.bytes 59 = none ∧ ∀ addr len, .load addr len ∈ m'.log → addr + len ≤ 19 := by
  intro m
  obtain ⟨m', hcopy, hbytes, hframe, ⟨new, hlog, hload, -⟩, -⟩ :=
    copySmall_is_memcpy 40 0 19 m (by decide) (by decide) (by decide)
  refine ⟨m', hcopy, hbytes 0 (by decide), hbytes 18 (by decide), hframe 59 (by decide), ?_⟩
  intro addr len hmem
  rw [hlog, List.nil_append] at hmem
  exact (Nat.zero_add 19) ▸ (hload addr len hmem).2

/-! ### The payloads of a slot -/

/-- The copy in `Send` and `SendToSlot`, from the caller's data into the request area. -/
def fillRequestAt (req : Nat) (max : Int) (data : Option Nat) (size : Int)
    (m : FlatMemory UInt8) : Except Error (Option (FlatMemory UInt8)) :=
  if size = 0 then .ok (some m)
  else
    match data with
    | none => .error .invalidArgs
    | some data =>
      let uAbsSize := absSize size
      if uint32 max < uAbsSize then .error .bufferTooSmall
      else if 0 ≤ size then .ok (copySmall req data uAbsSize m)
      else .ok (copySmall (req + uint32 (uint32 max - uAbsSize)) data uAbsSize m)

/-- The copy of a response of `absResp` bytes out of the response area, in `WaitForSlot`,
`SendAcquired` and `SendHeld`. -/
def copyResponseAt (out resp maxRespSize absResp : Nat) (respSize : Int)
    (m : FlatMemory UInt8) : Option (FlatMemory UInt8) :=
  if 0 < absResp then
    if 0 ≤ respSize then copySmall out resp absResp m
    else copySmall out (resp + uint32 (maxRespSize - absResp)) absResp m
  else some m

section Payload

variable {m : FlatMemory UInt8} {base p : Nat} {dst src : List UInt8}

/-- On areas that stand in memory the copy is the one of the areas as lists, and the bytes
around the destination area stay as they were. -/
theorem copySmall_refines (off n : Nat) (hdst : m.HoldsAt base dst) (hsrc : m.HoldsAt p src)
    (hroom : off + n ≤ dst.length) (hlen : n ≤ src.length) (hapart : Apart (base + off) p n) :
    ∃ m', copySmall (base + off) p n m = some m' ∧
      m'.HoldsAt base (Cpp.copySmall dst off src n) ∧
      ∀ addr, addr < base ∨ base + dst.length ≤ addr → m'.bytes addr = m.bytes addr := by
  have hmapped : m.Mapped (p + 0) n := hsrc.mapped (by omega)
  obtain ⟨m', hcopy, hcopied⟩ := exists_copySmall hapart hmapped (hdst.mapped hroom)
  refine ⟨m', hcopy, ?_, ?_⟩
  · rw [copySmall_eq hroom hlen]
    exact hdst.copied hsrc hroom hlen hcopied
  · intro addr houtside
    exact hcopied.frame addr (by omega)

theorem fillRequestAt_refines {reqBuffer data : List UInt8} {size : Int} {req : Nat}
    (hlength : reqBuffer.length < 2 ^ 31) (hsize : IsInt32 size)
    (hdata : data.length = size.natAbs) (hreq : m.HoldsAt req reqBuffer)
    (hsrc : m.HoldsAt p data) (hapart : req + reqBuffer.length ≤ p ∨ p + data.length ≤ req) :
    match fillRequest reqBuffer (some data) size with
    | .error error => fillRequestAt req (int32 reqBuffer.length) (some p) size m = .error error
    | .ok bytes =>
      ∃ m', fillRequestAt req (int32 reqBuffer.length) (some p) size m = .ok (some m') ∧
        m'.HoldsAt req bytes ∧
        ∀ addr, addr < req ∨ req + reqBuffer.length ≤ addr → m'.bytes addr = m.bytes addr := by
  have hmax : uint32 (int32 reqBuffer.length) = reqBuffer.length := by
    rw [int32_natCast hlength, uint32_natCast (by omega)]
  simp only [fillRequest, fillRequestAt, absSize_eq hsize, hmax]
  by_cases hzero : size = 0
  · rw [if_pos hzero, if_pos hzero]
    exact ⟨m, rfl, hreq, fun _ _ => rfl⟩
  rw [if_neg hzero, if_neg hzero]
  by_cases hlarge : reqBuffer.length < size.natAbs
  · rw [if_pos hlarge, if_pos hlarge]
  rw [if_neg hlarge, if_neg hlarge, uint32_sub (by omega) (by omega)]
  by_cases hpos : 0 ≤ size
  · rw [if_pos hpos, if_pos hpos]
    obtain ⟨m', hcopy, hrest⟩ := copySmall_refines 0 size.natAbs hreq hsrc (by omega) (by omega)
      (by unfold Apart; omega)
    exact ⟨m', congrArg Except.ok hcopy, hrest⟩
  · rw [if_neg hpos, if_neg hpos]
    obtain ⟨m', hcopy, hrest⟩ := copySmall_refines (reqBuffer.length - size.natAbs) size.natAbs
      hreq hsrc (by omega) (by omega) (by unfold Apart; omega)
    exact ⟨m', congrArg Except.ok hcopy, hrest⟩

theorem copyResponseAt_refines {slot : Slot} {outResp : List UInt8} {out resp : Nat}
    (hlength : slot.respBuffer.length < 2 ^ 31)
    (hout : m.HoldsAt out ((outResp.take (absResp slot)).rightpad (absResp slot) 0))
    (hresp : m.HoldsAt resp slot.respBuffer)
    (hapart : out + absResp slot ≤ resp ∨ resp + slot.respBuffer.length ≤ out) :
    ∃ m', copyResponseAt out resp slot.respBuffer.length (absResp slot) slot.respSize m =
        some m' ∧
      m'.HoldsAt out (copyResponse slot outResp).1 ∧
      ∀ addr, addr < out ∨ out + absResp slot ≤ addr → m'.bytes addr = m.bytes addr := by
  have hcap : absResp slot ≤ slot.respBuffer.length := by
    unfold absResp
    split <;> omega
  simp only [copyResponse, copyResponseAt]
  generalize absResp slot = n at hout hapart hcap
  have hroom : ((outResp.take n).rightpad n 0).length = n := by
    simp only [List.rightpad, List.length_append, List.length_take, List.length_replicate]
    omega
  by_cases hpos : 0 < n
  · rw [if_pos hpos, if_pos hpos, uint32_sub (by omega) hcap]
    by_cases hsign : 0 ≤ slot.respSize
    · rw [if_pos hsign, if_pos hsign]
      obtain ⟨m', hcopy, hholds, hframe⟩ := copySmall_refines 0 n hout hresp (by omega) hcap
        (by unfold Apart; omega)
      rw [hroom] at hframe
      exact ⟨m', hcopy, hholds, hframe⟩
    · rw [if_neg hsign, if_neg hsign]
      have hdrop := hresp.drop (slot.respBuffer.length - n)
      obtain ⟨m', hcopy, hholds, hframe⟩ := copySmall_refines 0 n hout hdrop (by omega)
        (by rw [List.length_drop]; omega) (by unfold Apart; omega)
      rw [hroom] at hframe
      exact ⟨m', hcopy, hholds, hframe⟩
  · rw [if_neg hpos, if_neg hpos]
    exact ⟨m, rfl, hout, fun _ _ => rfl⟩

end Payload

end ShmIpc.Slots.Cpp.Platform
