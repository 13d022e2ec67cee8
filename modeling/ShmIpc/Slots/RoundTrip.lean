import ShmIpc.Slots.HostSystem
import ShmIpc.Slots.SizeField

/-!
Payloads through a slot. A sender leaves a payload at the start of an area under a
size that is its length, or at the end under the negated length; every reader of
the other side, with its own arithmetic, finds exactly that payload again. All
that is asked of a capacity is that its bytes can be counted in the size field.

A handler is foreign code: it may leave any bytes in the response area, as long
as the payload stands where the size it returns says.
-/

namespace ShmIpc.Slots

open Library

inductive Alignment
  | start
  | last
  deriving DecidableEq

/-- The size field of a payload of `n` bytes. -/
def Alignment.size : Alignment → Nat → Int
  | .start, n => n
  | .last, n => -n

/-- The payload stands in the buffer where its alignment says; the other bytes are
arbitrary. -/
def Alignment.Holds : Alignment → List UInt8 → List UInt8 → Prop
  | .start, buffer, payload => payload <+: buffer
  | .last, buffer, payload => payload <:+ buffer

instance (alignment : Alignment) (buffer payload : List UInt8) :
    Decidable (alignment.Holds buffer payload) :=
  match alignment with
  | .start => inferInstanceAs (Decidable (payload <+: buffer))
  | .last => inferInstanceAs (Decidable (payload <:+ buffer))

namespace Alignment

variable (alignment : Alignment) {buffer payload : List UInt8} {n : Nat}

@[simp]
theorem natAbs_size : (alignment.size n).natAbs = n := by
  cases alignment with
  | start => exact Int.natAbs_natCast n
  | last => rw [size, Int.natAbs_neg, Int.natAbs_natCast]

theorem size_zero : alignment.size 0 = 0 := by
  cases alignment with
  | start => rfl
  | last => rfl

theorem isInt32_size (h : n < 2 ^ 31) : IsInt32 (alignment.size n) := by
  cases alignment with
  | start => exact isInt32_natCast h
  | last => exact ⟨by simp only [size]; omega, by simp only [size]; omega⟩

variable {alignment}

theorem Holds.length_le (h : alignment.Holds buffer payload) :
    payload.length ≤ buffer.length := by
  cases alignment with
  | start => exact List.IsPrefix.length_le h
  | last => exact List.IsSuffix.length_le h

theorem Holds.sized_eq (h : alignment.Holds buffer payload) :
    sized buffer (alignment.size payload.length) = payload := by
  have hle := h.length_le
  cases alignment with
  | start =>
    rw [sized, if_pos (by simp only [size]; omega), natAbs_size]
    exact (List.prefix_iff_eq_take.mp h).symm
  | last =>
    rw [Slots.sized_eq, natAbs_size, sizedOffset]
    split
    case isTrue hpos =>
      have hnil : payload.length = 0 := by simp only [size] at hpos; omega
      rw [hnil, List.take_zero, List.length_eq_zero_iff.mp hnil]
    case isFalse hneg =>
      rw [natAbs_size, ← List.suffix_iff_eq_drop.mp h, List.take_length]

theorem holds_overwrite (alignment : Alignment) (h : payload.length ≤ buffer.length) :
    alignment.Holds
      (overwrite buffer (sizedOffset buffer.length (alignment.size payload.length)) payload)
      payload := by
  cases alignment with
  | start =>
    rw [sizedOffset, if_pos (by simp only [size]; omega)]
    exact isPrefix_overwrite_zero buffer payload
  | last =>
    unfold sizedOffset
    split
    case isTrue hpos =>
      have hnil : payload.length = 0 := by simp only [size] at hpos; omega
      rw [List.length_eq_zero_iff.mp hnil]
      exact List.nil_suffix
    case isFalse hneg =>
      rw [natAbs_size]
      exact isSuffix_overwrite_last buffer payload h

end Alignment

theorem sizeFits_of_le {s : Slot} {reqSize : Int} (hlength : s.reqBuffer.length < 2 ^ 31)
    (h : reqSize.natAbs ≤ s.reqBuffer.length) : Go.sizeFits s reqSize = true := by
  unfold Go.sizeFits
  split
  · rw [decide_eq_true_eq]
    omega
  · rw [Bool.and_eq_true, decide_eq_true_eq, decide_eq_true_eq, negInt32, if_neg (by omega)]
    omega

theorem readResponse_of_le {respBuffer : List UInt8} {respSize : Int}
    (hlength : respBuffer.length < 2 ^ 31) (h : respSize.natAbs ≤ respBuffer.length) :
    readResponse respBuffer respSize = .response (sized respBuffer respSize) := by
  generalize hresult : readResponse respBuffer respSize = result
  cases result with
  | response bytes => rw [sized_of_readResponse hresult]
  | failed error =>
    unfold readResponse negInt32 at hresult
    rw [if_neg (by omega : ¬ respSize = -2 ^ 31)] at hresult
    simp only at hresult
    split at hresult
    · rw [if_neg (by omega)] at hresult
      cases hresult
    · rw [if_neg (by omega), if_neg (by omega)] at hresult
      cases hresult

/-- What the sender placed is what the receiver finds, for areas of one capacity. -/
structure RoundTrips (capacity : Nat) : Prop where
  /-- `Send` and `SendToSlot` to the slice of the worker. An empty payload needs no data. -/
  hostRequest (s : Slot) (alignment : Alignment) (payload : List UInt8)
    (data : Option (List UInt8)) (msgType : MsgType) :
    s.reqBuffer.length = capacity → payload.length ≤ capacity →
    (payload ≠ [] → data = some payload) →
    ∃ published, Cpp.send s data (alignment.size payload.length) msgType = .ok published ∧
      Cpp.sendToSlot s data (alignment.size payload.length) msgType = .ok published ∧
      Go.requestSlice published = some payload
  /-- The handler of the worker to the four ways of taking a response. -/
  guestResponse (s : Slot) (alignment : Alignment) (bytes payload outResp : List UInt8)
    (respType : MsgType) :
    bytes.length = capacity → alignment.Holds bytes payload →
    let answered := Go.answer s bytes (alignment.size payload.length) respType
    let taken := if respType = .systemError then .error .internalError
      else .ok (payload, (payload.length : Int))
    Cpp.SendAcquired.response answered outResp = taken ∧
      Cpp.WaitForSlot.response answered outResp = taken ∧
      Cpp.SendHeld.response answered outResp = taken ∧
      Cpp.ZeroCopySlot.getRespSize answered = payload.length ∧
      (bytes.drop (Cpp.ZeroCopySlot.getRespBuffer answered)).take
        (Cpp.ZeroCopySlot.getRespSize answered).toNat = payload
  /-- `SendGuestCall` to the pointer and the length of the handler of `ProcessGuestCalls`. -/
  guestRequest (s : Slot) (data : List UInt8) (msgType : MsgType) :
    s.reqBuffer.length = capacity → data.length ≤ capacity →
    ∃ published offset, Go.fillRequest s data msgType = .ok published ∧
      published.reqSize =
        (if msgType = .flatbuffer then Alignment.last else .start).size data.length ∧
      Cpp.requestArea published = some (offset, (data.length : Int)) ∧
      (published.reqBuffer.drop offset).take data.length = data
  /-- The handler of `ProcessGuestCalls` to the bytes `SendGuestCall` returns. -/
  hostResponse (s : Slot) (alignment : Alignment) (bytes payload : List UInt8)
    (buffer : Option (List UInt8)) :
    bytes.length = capacity → alignment.Holds bytes payload →
    Go.takeResponse (Cpp.answer s bytes (alignment.size payload.length)) buffer =
      if s.msgType = .systemError then .failed .systemError else .response payload

section

variable {capacity : Nat} (hcapacity : capacity < 2 ^ 31)
include hcapacity

theorem fillAndSend_holds {s : Slot} (alignment : Alignment) {payload : List UInt8}
    {data : Option (List UInt8)} (hlength : s.reqBuffer.length = capacity)
    (hpayload : payload.length ≤ capacity) (hdata : payload ≠ [] → data = some payload)
    (msgType : MsgType) :
    ∃ published, Cpp.fillAndSend s data (alignment.size payload.length) msgType = .ok published ∧
      published.reqSize = alignment.size payload.length ∧
      published.reqBuffer.length = capacity ∧ alignment.Holds published.reqBuffer payload := by
  subst hlength
  have hsize := alignment.isInt32_size (n := payload.length) (by omega)
  have hfilled : Cpp.fillAndSend s data (alignment.size payload.length) msgType =
      Cpp.fillAndSend s (some payload) (alignment.size payload.length) msgType := by
    by_cases hnil : payload = []
    · rw [hnil, List.length_nil, alignment.size_zero]
      exact Cpp.fillAndSend_zero s data msgType
    · rw [hdata hnil]
  have hfits : (alignment.size payload.length).natAbs ≤ s.reqBuffer.length := by
    rw [Alignment.natAbs_size]
    exact hpayload
  rw [hfilled, Cpp.fillAndSend_eq hcapacity hsize alignment.natAbs_size.symm hfits]
  exact ⟨_, rfl, rfl, length_overwrite_sized alignment.natAbs_size.symm hfits,
    alignment.holds_overwrite hpayload⟩

theorem requestSlice_of_holds {s : Slot} {alignment : Alignment} {payload : List UInt8}
    (hlength : s.reqBuffer.length = capacity) (hsize : s.reqSize = alignment.size payload.length)
    (h : alignment.Holds s.reqBuffer payload) : Go.requestSlice s = some payload := by
  have hle := h.length_le
  rw [Go.requestSlice_eq (by omega) (hsize ▸ alignment.isInt32_size (by omega)),
    sizeFits_of_le (by omega) (by rw [hsize, Alignment.natAbs_size]; exact hle), if_pos rfl, hsize,
    h.sized_eq]

theorem copyResponse_of_holds {s : Slot} {alignment : Alignment} {payload : List UInt8}
    (hlength : s.respBuffer.length = capacity)
    (hsize : s.respSize = alignment.size payload.length)
    (h : alignment.Holds s.respBuffer payload) (outResp : List UInt8) :
    Cpp.copyResponse s outResp = (payload, (payload.length : Int)) := by
  have hle := h.length_le
  rw [Cpp.copyResponse_eq (by omega) (hsize ▸ alignment.isInt32_size (by omega)), hsize,
    copyOut_eq_sized _ _ (by rw [Alignment.natAbs_size]; exact hle), h.sized_eq,
    Alignment.natAbs_size, Nat.min_eq_left hle]

theorem zeroCopy_of_holds {s : Slot} {alignment : Alignment} {payload : List UInt8}
    (hlength : s.respBuffer.length = capacity)
    (hsize : s.respSize = alignment.size payload.length)
    (h : alignment.Holds s.respBuffer payload) :
    Cpp.ZeroCopySlot.getRespSize s = payload.length ∧
      (s.respBuffer.drop (Cpp.ZeroCopySlot.getRespBuffer s)).take
        (Cpp.ZeroCopySlot.getRespSize s).toNat = payload := by
  have hle := h.length_le
  have hint : IsInt32 s.respSize := hsize ▸ alignment.isInt32_size (by omega)
  have hresp : Cpp.ZeroCopySlot.getRespSize s = payload.length := by
    rw [Cpp.ZeroCopySlot.getRespSize_eq (by omega) hint, hsize, Alignment.natAbs_size,
      Nat.min_eq_left hle]
  have hbytes := h.sized_eq
  rw [sized_eq, Alignment.natAbs_size, ← hsize,
    ← Cpp.ZeroCopySlot.getRespBuffer_eq (by omega) hint] at hbytes
  refine ⟨hresp, ?_⟩
  rw [hresp, Int.toNat_natCast, hbytes]

theorem guestFill_holds {s : Slot} {data : List UInt8}
    (hlength : s.reqBuffer.length = capacity) (hdata : data.length ≤ capacity)
    (msgType : MsgType) :
    ∃ published, Go.fillRequest s data msgType = .ok published ∧
      published.reqSize =
        (if msgType = .flatbuffer then Alignment.last else .start).size data.length ∧
      published.reqBuffer.length = capacity ∧
      (if msgType = .flatbuffer then Alignment.last else .start).Holds
        published.reqBuffer data := by
  subst hlength
  refine ⟨_, Go.fillRequest_eq hcapacity hdata, ?_, GuestCall.length_place _ hdata, ?_⟩
  · simp only [GuestCall.reqSize]
    split <;> rfl
  · simp only [GuestCall.place]
    split
    · exact List.suffix_append _ _
    · exact List.prefix_append _ _

theorem requestArea_of_holds {s : Slot} {alignment : Alignment} {payload : List UInt8}
    (hlength : s.reqBuffer.length = capacity) (hsize : s.reqSize = alignment.size payload.length)
    (h : alignment.Holds s.reqBuffer payload) :
    ∃ offset, Cpp.requestArea s = some (offset, (payload.length : Int)) ∧
      (s.reqBuffer.drop offset).take payload.length = payload := by
  have hle := h.length_le
  have hbytes := h.sized_eq
  rw [sized_eq, Alignment.natAbs_size, ← hsize] at hbytes
  refine ⟨_, ?_, hbytes⟩
  rw [Cpp.requestArea_eq (by omega) (hsize ▸ alignment.isInt32_size (by omega)), hsize,
    Alignment.natAbs_size, if_neg (by omega)]

theorem takeResponse_of_holds {s : Slot} {alignment : Alignment} {bytes payload : List UInt8}
    (hlength : bytes.length = capacity) (h : alignment.Holds bytes payload)
    (buffer : Option (List UInt8)) :
    Go.takeResponse (Cpp.answer s bytes (alignment.size payload.length)) buffer =
      if s.msgType = .systemError then .failed .systemError else .response payload := by
  have hle := h.length_le
  have hint := alignment.isInt32_size (n := payload.length) (by omega)
  have hanswer : Cpp.answer s bytes (alignment.size payload.length) =
      { s with respBuffer := bytes, respSize := alignment.size payload.length } := by
    rw [Cpp.answer, Cpp.absSize_eq hint, Alignment.natAbs_size]
    simp only
    rw [if_neg (by omega)]
  rw [hanswer, Go.takeResponse_eq (by simp only; omega) hint]
  simp only
  rw [readResponse_of_le (by omega) (by rw [Alignment.natAbs_size]; exact hle), h.sized_eq]

end

theorem payload_round_trips (capacity : Nat) (h : capacity ≤ 2 ^ 30) : RoundTrips capacity where
  hostRequest s alignment payload data msgType hlength hpayload hdata := by
    obtain ⟨published, hsent, hsize, hcapacity, hholds⟩ :=
      fillAndSend_holds (by omega) alignment hlength hpayload hdata msgType
    exact ⟨published, hsent, hsent, requestSlice_of_holds (by omega) hcapacity hsize hholds⟩
  guestResponse s alignment bytes payload outResp respType hlength hholds := by
    intro answered taken
    have htaken : Cpp.takeResponse answered outResp = taken := by
      rw [Cpp.takeResponse, copyResponse_of_holds (by omega) hlength rfl hholds]
      rfl
    exact ⟨htaken, htaken, htaken, zeroCopy_of_holds (by omega) hlength rfl hholds⟩
  guestRequest s data msgType hlength hdata := by
    obtain ⟨published, hsent, hsize, hcapacity, hholds⟩ :=
      guestFill_holds (by omega) hlength hdata msgType
    obtain ⟨offset, harea, hfound⟩ := requestArea_of_holds (by omega) hcapacity hsize hholds
    exact ⟨published, offset, hsent, hsize, harea, hfound⟩
  hostResponse s alignment bytes payload buffer hlength hholds :=
    takeResponse_of_holds (by omega) hlength hholds buffer

theorem payload_round_trips_full :
    (∃ published, Cpp.send smallSlot (some [7, 8]) (-2) .normal = .ok published ∧
      Cpp.sendToSlot smallSlot (some [7, 8]) (-2) .normal = .ok published ∧
      Go.requestSlice published = some [7, 8]) ∧
    Go.takeResponse (Cpp.answer smallSlot [0, 9] (-1)) (some [1, 2, 3]) = .response [9] :=
  ⟨(payload_round_trips 2 (by decide)).hostRequest smallSlot .last [7, 8] (some [7, 8]) .normal
      rfl (by decide) (fun _ => rfl),
    (payload_round_trips 2 (by decide)).hostResponse smallSlot .last [0, 9] [9] (some [1, 2, 3])
      rfl (by decide)⟩

end ShmIpc.Slots
