import ShmIpc.Slots.RoundTrip

/-!
Responses that do not fit. A handler returns a size; nothing forces it to be one the
response area can hold. `ProcessGuestCalls` turns such a size into an error before the
guest sees it. The Go worker publishes it as it is, and the host's readers cut it down to
the area and report success.
-/

namespace ShmIpc.Slots

open Library

/-- What a holder of a zero-copy slot has after `Send`. -/
def Cpp.ZeroCopySlot.response (s : Slot) : Except Error (List UInt8 × Int) :=
  if s.msgType = .systemError then .error .internalError
  else .ok ((s.respBuffer.drop (getRespBuffer s)).take (getRespSize s).toNat, getRespSize s)

/-- A call of the host reports an error, or it has all the bytes the size denotes. -/
def ExactOrError (bytes : List UInt8) (respSize : Int) : Except Error (List UInt8 × Int) → Prop
  | .error _ => True
  | .ok (data, size) =>
    data = sized bytes respSize ∧ data.length = respSize.natAbs ∧ size = respSize.natAbs

def GuestExactOrError (bytes : List UInt8) (respSize : Int) : GuestResult → Prop
  | .failed _ => True
  | .response data => data = sized bytes respSize ∧ data.length = respSize.natAbs

/-- No requester takes a part of a response for the whole of it, for a handler that leaves
`bytes` in the response area and returns `respSize`, on the guest with `respType`. -/
structure NeverShortened (bytes : List UInt8) (respSize : Int) (respType : MsgType) : Prop where
  sendAcquired : ∀ s outResp, ExactOrError bytes respSize
    (Cpp.SendAcquired.response (Go.answer s bytes respSize respType) outResp)
  waitForSlot : ∀ s outResp, ExactOrError bytes respSize
    (Cpp.WaitForSlot.response (Go.answer s bytes respSize respType) outResp)
  sendHeld : ∀ s outResp, ExactOrError bytes respSize
    (Cpp.SendHeld.response (Go.answer s bytes respSize respType) outResp)
  zeroCopy : ∀ s, ExactOrError bytes respSize
    (Cpp.ZeroCopySlot.response (Go.answer s bytes respSize respType))
  guestCall : ∀ s buffer, GuestExactOrError bytes respSize
    (Go.takeResponse (Cpp.answer s bytes respSize) buffer)

section

variable {bytes : List UInt8} {respSize : Int} (hlength : bytes.length < 2 ^ 31)
  (hsize : IsInt32 respSize)
include hlength hsize

theorem takeResponse_answer (s : Slot) (respType : MsgType) (outResp : List UInt8) :
    Cpp.takeResponse (Go.answer s bytes respSize respType) outResp =
      if respType = .systemError then .error .internalError
      else .ok (copyOut bytes respSize, ((min respSize.natAbs bytes.length : Nat) : Int)) := by
  unfold Cpp.takeResponse
  rw [Cpp.copyResponse_eq hlength hsize]
  rfl

theorem zeroCopy_answer (s : Slot) (respType : MsgType) :
    Cpp.ZeroCopySlot.response (Go.answer s bytes respSize respType) =
      if respType = .systemError then .error .internalError
      else .ok (copyOut bytes respSize, ((min respSize.natAbs bytes.length : Nat) : Int)) := by
  have hview : (bytes.drop (sizedOffset bytes.length respSize)).take
      (min respSize.natAbs bytes.length) = copyOut bytes respSize := by
    simp only [copyOut, sizedOffset]
    by_cases hpos : 0 ≤ respSize
    · rw [if_pos hpos, if_pos hpos, sized, if_pos (by omega), Int.natAbs_natCast, List.drop_zero]
    · rw [if_neg hpos, if_neg hpos, sized_eq, Int.natAbs_neg, Int.natAbs_natCast, sizedOffset]
      split
      case isTrue hzero =>
        have hnone : min respSize.natAbs bytes.length = 0 := by omega
        rw [hnone, List.take_zero, List.take_zero]
      case isFalse hsome =>
        rw [Int.natAbs_neg, Int.natAbs_natCast,
          show bytes.length - respSize.natAbs =
            bytes.length - min respSize.natAbs bytes.length by omega]
  unfold Cpp.ZeroCopySlot.response
  rw [Cpp.ZeroCopySlot.getRespSize_eq hlength hsize,
    Cpp.ZeroCopySlot.getRespBuffer_eq hlength hsize, Int.toNat_natCast]
  exact congrArg (fun data => if respType = .systemError then _ else Except.ok (data, _)) hview

omit hlength hsize in
theorem exactOrError_copyOut_iff (bytes : List UInt8) (respSize : Int) (respType : MsgType) :
    ExactOrError bytes respSize
        (if respType = .systemError then .error .internalError
        else .ok (copyOut bytes respSize, ((min respSize.natAbs bytes.length : Nat) : Int))) ↔
      respType = .systemError ∨ respSize.natAbs ≤ bytes.length := by
  by_cases htype : respType = .systemError
  · rw [if_pos htype]
    exact ⟨fun _ => Or.inl htype, fun _ => trivial⟩
  · rw [if_neg htype]
    constructor
    · rintro ⟨-, -, hmin⟩
      exact Or.inr (by omega)
    · rintro (h | hfits)
      · exact absurd h htype
      · refine ⟨copyOut_eq_sized bytes respSize hfits, ?_, ?_⟩
        · rw [copyOut_eq_sized bytes respSize hfits, length_sized hfits]
        · rw [Nat.min_eq_left hfits]

theorem guestExactOrError (s : Slot) (buffer : Option (List UInt8)) :
    GuestExactOrError bytes respSize (Go.takeResponse (Cpp.answer s bytes respSize) buffer) := by
  unfold Cpp.answer
  simp only [Cpp.absSize_eq hsize]
  split
  · unfold Go.takeResponse
    rw [if_pos rfl]
    trivial
  case isFalse hfits =>
    have hle : respSize.natAbs ≤ bytes.length := Nat.not_lt.mp hfits
    rw [Go.takeResponse_eq hlength hsize]
    simp only
    split
    · trivial
    · rw [readResponse_of_le hlength hle]
      exact ⟨rfl, length_sized hle⟩

end

/-- The host's readers are right about a response exactly if it fits or is an error
already; the guest always is. -/
theorem neverShortened_iff (bytes : List UInt8) (respSize : Int) (respType : MsgType)
    (hcapacity : bytes.length ≤ 2 ^ 30) (hsize : IsInt32 respSize) :
    (NeverShortened bytes respSize respType ↔
      respType = .systemError ∨ respSize.natAbs ≤ bytes.length) ∧
    ∀ s buffer, GuestExactOrError bytes respSize
      (Go.takeResponse (Cpp.answer s bytes respSize) buffer) := by
  have hlength : bytes.length < 2 ^ 31 := by omega
  have hcopy : ∀ s outResp, ExactOrError bytes respSize
      (Cpp.takeResponse (Go.answer s bytes respSize respType) outResp) ↔
        respType = .systemError ∨ respSize.natAbs ≤ bytes.length := by
    intro s outResp
    rw [takeResponse_answer hlength hsize]
    exact exactOrError_copyOut_iff bytes respSize respType
  refine ⟨⟨fun h => (hcopy smallSlot []).mp (h.sendAcquired smallSlot []), ?_⟩,
    guestExactOrError hlength hsize⟩
  intro hfits
  refine ⟨fun s out => (hcopy s out).mpr hfits, fun s out => (hcopy s out).mpr hfits,
    fun s out => (hcopy s out).mpr hfits, ?_, guestExactOrError hlength hsize⟩
  intro s
  rw [zeroCopy_answer hlength hsize]
  exact (exactOrError_copyOut_iff bytes respSize respType).mpr hfits

theorem neverShortened_full :
    NeverShortened [1, 2] (-2) .normal ↔ MsgType.normal = .systemError ∨ 2 ≤ 2 :=
  (neverShortened_iff [1, 2] (-2) .normal (by decide) (by decide)).1

/-- The handler of the guest announces three bytes in an area of two. `SendAcquired` returns
two of them as a success, and so does a zero-copy slot. -/
theorem shortened_success :
    Cpp.SendAcquired.response (Go.answer smallSlot [1, 2] 3 .normal) [] = .ok ([1, 2], 2) ∧
      Cpp.ZeroCopySlot.response (Go.answer smallSlot [1, 2] 3 .normal) = .ok ([1, 2], 2) ∧
      ¬ NeverShortened [1, 2] 3 .normal := by
  have hcopy : Cpp.takeResponse (Go.answer smallSlot [1, 2] 3 .normal) [] = .ok ([1, 2], 2) :=
    takeResponse_answer (by decide) (by decide) smallSlot .normal []
  refine ⟨hcopy, zeroCopy_answer (by decide) (by decide) smallSlot .normal, ?_⟩
  intro h
  have hexact := h.sendAcquired smallSlot []
  rw [show Cpp.SendAcquired.response _ _ = _ from hcopy] at hexact
  exact absurd hexact.2.2 (by decide)

end ShmIpc.Slots
