import ShmIpc.Library.MachineInt
import ShmIpc.Library.Placement
import ShmIpc.Slots.HostThread
import ShmIpc.Slots.GuestThread
import ShmIpc.Slots.Processor

/-!
The code that places a payload in a request or response area and the code that
finds it again, with the integer types the source uses: unsigned 32-bit
arithmetic in C++, signed 32-bit arithmetic in Go. The threads of the slot models
work with exact absolute values instead. The theorems of this module say that
the two agree on every 32-bit size and every area whose length is a signed 32-bit
integer, so what is proved about the threads holds of the machine arithmetic.
-/

namespace ShmIpc.Slots

open Library

namespace Cpp

/-- Two copies of `w` bytes, from both ends of the `n` bytes to copy. -/
def copyEnds (dst : List UInt8) (off : Nat) (src : List UInt8) (n w : Nat) : List UInt8 :=
  overwrite (overwrite dst off (src.take w)) (off + n - w) ((src.drop (n - w)).take w)

/-- `Platform::CopySmall` of `n` bytes to `dst + off`. -/
def copySmall (dst : List UInt8) (off : Nat) (src : List UInt8) (n : Nat) : List UInt8 :=
  if 16 ≤ n then
    if n ≤ 32 then copyEnds dst off src n 16
    else if n ≤ 64 then copyEnds dst off src n 32
    else if n ≤ 128 then copyEnds dst off src n 64
    else if n ≤ 256 then copyEnds dst off src n 128
    else overwrite dst off (src.take n)
  else if 8 ≤ n then copyEnds dst off src n 8
  else if 4 ≤ n then copyEnds dst off src n 4
  else if 2 ≤ n then copyEnds dst off src n 2
  else if n = 1 then overwrite dst off (src.take 1)
  else dst

/-- `(size < 0) ? (0u - (uint32_t)size) : (uint32_t)size`. -/
def absSize (size : Int) : Nat :=
  if size < 0 then uint32 (0 - uint32 size) else uint32 size

/-- The copy of the caller's data into a claimed slot, in `Send` and in `SendToSlot`. -/
def fillRequest (reqBuffer : List UInt8) (data : Option (List UInt8)) (size : Int) :
    Except Error (List UInt8) :=
  if size = 0 then .ok reqBuffer
  else
    match data with
    | none => .error .invalidArgs
    | some data =>
      let max := int32 reqBuffer.length
      let uAbsSize := absSize size
      if uint32 max < uAbsSize then .error .bufferTooSmall
      else if 0 ≤ size then .ok (copySmall reqBuffer 0 data uAbsSize)
      else .ok (copySmall reqBuffer (uint32 (uint32 max - uAbsSize)) data uAbsSize)

/-- What `SendAcquired` tells the peer about the request in the slot. -/
def sendAcquired (s : Slot) (size : Int) (msgType : MsgType) : Except Error Slot :=
  if s.reqBuffer.length < absSize size then .error .bufferTooSmall
  else .ok { s with reqSize := size, msgType }

def fillAndSend (s : Slot) (data : Option (List UInt8)) (size : Int) (msgType : MsgType) :
    Except Error Slot := do
  let reqBuffer ← fillRequest s.reqBuffer data size
  sendAcquired { s with reqBuffer } size msgType

/-- `Send`, on the slot `AcquireSlot` returned. -/
def send (s : Slot) (data : Option (List UInt8)) (size : Int) (msgType : MsgType) :
    Except Error Slot :=
  fillAndSend s data size msgType

/-- `SendToSlot`, on the slot `AcquireSpecificSlot` returned. -/
def sendToSlot (s : Slot) (data : Option (List UInt8)) (size : Int) (msgType : MsgType) :
    Except Error Slot :=
  fillAndSend s data size msgType

/-- The size of a response as its reader takes it, cut down to the response area. -/
def absResp (s : Slot) : Nat :=
  if s.respBuffer.length < absSize s.respSize then s.respBuffer.length else absSize s.respSize

/-- The copy of a response into the caller's vector, and the size returned with it. -/
def copyResponse (s : Slot) (outResp : List UInt8) : List UInt8 × Int :=
  let n := absResp s
  let outResp := (outResp.take n).rightpad n 0
  let outResp :=
    if 0 < n then
      if 0 ≤ s.respSize then copySmall outResp 0 s.respBuffer n
      else copySmall outResp 0 (s.respBuffer.drop (uint32 (s.respBuffer.length - n))) n
    else outResp
  (outResp, int32 n)

/-- The end of a call that takes its response by copy. -/
def takeResponse (s : Slot) (outResp : List UInt8) : Except Error (List UInt8 × Int) :=
  if s.msgType = .systemError then .error .internalError else .ok (copyResponse s outResp)

def SendAcquired.response (s : Slot) (outResp : List UInt8) : Except Error (List UInt8 × Int) :=
  takeResponse s outResp

def WaitForSlot.response (s : Slot) (outResp : List UInt8) : Except Error (List UInt8 × Int) :=
  takeResponse s outResp

def SendHeld.response (s : Slot) (outResp : List UInt8) : Except Error (List UInt8 × Int) :=
  takeResponse s outResp

/-- The pointer of `GetRespBuffer`, as an offset into the response area. -/
def ZeroCopySlot.getRespBuffer (s : Slot) : Nat :=
  if 0 ≤ s.respSize then 0
  else
    let absRSize := uint32 (0 - uint32 s.respSize)
    let absRSize := if s.respBuffer.length < absRSize then s.respBuffer.length else absRSize
    uint32 (s.respBuffer.length - absRSize)

def ZeroCopySlot.getRespSize (s : Slot) : Int := int32 (absResp s)

/-- What `ProcessGuestCalls` hands its handler: the pointer, as an offset into the
request area, and the length. There is none if the size exceeds the area. -/
def requestArea (s : Slot) : Option (Nat × Int) :=
  let absReqSize := absSize s.reqSize
  if s.reqBuffer.length < absReqSize then none
  else some (if 0 ≤ s.reqSize then 0 else uint32 (s.reqBuffer.length - absReqSize),
    int32 absReqSize)

/-- The slot after the handler of `ProcessGuestCalls` has left `bytes` in the response
area and returned `respSize`. -/
def answer (s : Slot) (bytes : List UInt8) (respSize : Int) : Slot :=
  let s := { s with respBuffer := bytes }
  if s.respBuffer.length < absSize respSize then { s with msgType := .systemError, respSize := 0 }
  else { s with respSize }

end Cpp

namespace Go

/-- The slice of the request area which the worker passes to its handler. -/
def requestSlice (s : Slot) : Option (List UInt8) :=
  let len := int32 s.reqBuffer.length
  if 0 ≤ s.reqSize then
    if len < s.reqSize then none else some (s.reqBuffer.take s.reqSize.toNat)
  else
    let rLen := int32 (-s.reqSize)
    if rLen < 0 ∨ len < rLen then none
    else some (s.reqBuffer.drop (int32 (len - rLen)).toNat)

/-- The slot after the worker's handler has left `bytes` in the response area and
returned a size and a type. -/
def answer (s : Slot) (bytes : List UInt8) (respSize : Int) (respType : MsgType) : Slot :=
  { s with respBuffer := bytes, respSize, msgType := respType }

/-- The request of a guest call in the slot it claimed. -/
def fillRequest (s : Slot) (data : List UInt8) (msgType : MsgType) : Except GuestError Slot :=
  if s.reqBuffer.length < data.length then .error .dataTooLarge
  else if msgType = .flatbuffer then
    let offset := s.reqBuffer.length - data.length
    .ok { s with
      reqBuffer := copyAt s.reqBuffer offset data
      reqSize := int32 (-int32 data.length)
      msgType }
  else
    .ok { s with
      reqBuffer := copyAt s.reqBuffer 0 data
      reqSize := int32 data.length
      msgType }

/-- The slice a response of `n` bytes is copied to: the caller's, if it has the
capacity, or a new one. `buffer` lists the bytes up to the capacity. -/
def respData (buffer : Option (List UInt8)) (n : Nat) : List UInt8 :=
  match buffer with
  | some bytes => if n ≤ bytes.length then bytes.take n else List.replicate n 0
  | none => List.replicate n 0

/-- The end of a guest call that has the slot to itself again. -/
def takeResponse (s : Slot) (buffer : Option (List UInt8)) : GuestResult :=
  if s.msgType = .systemError then .failed .systemError
  else if 0 ≤ s.respSize then
    if (s.respBuffer.length : Int) < s.respSize then
      .failed (.sizeExceeds s.respSize s.respBuffer.length)
    else
      let n := s.respSize.toNat
      .response (copyAt (respData buffer n) 0 (s.respBuffer.take n))
  else
    let rLen := int32 (-s.respSize)
    if rLen < 0 then .failed (.invalidSize s.respSize)
    else if (s.respBuffer.length : Int) < rLen then
      .failed (.sizeExceeds rLen s.respBuffer.length)
    else
      let offset := int32 (int32 s.respBuffer.length - rLen)
      .response (copyAt (respData buffer rLen.toNat) 0 (s.respBuffer.drop offset.toNat))

end Go

/-- Where the bytes that a size field denotes begin. -/
def sizedOffset (length : Nat) (size : Int) : Nat :=
  if 0 ≤ size then 0 else length - size.natAbs

theorem sized_eq (buffer : List UInt8) (size : Int) :
    sized buffer size = (buffer.drop (sizedOffset buffer.length size)).take size.natAbs := by
  unfold sized sizedOffset
  split
  · rw [List.drop_zero]
  · rfl

theorem length_overwrite_sized {buffer data : List UInt8} {size : Int}
    (hdata : data.length = size.natAbs) (hfits : size.natAbs ≤ buffer.length) :
    (overwrite buffer (sizedOffset buffer.length size) data).length = buffer.length := by
  apply length_overwrite
  unfold sizedOffset
  split <;> omega

namespace Cpp

theorem copyEnds_eq {dst : List UInt8} {off : Nat} {src : List UInt8} {n w : Nat}
    (hdst : off + n ≤ dst.length) (hsrc : n ≤ src.length) (hw : w ≤ n) (hmeet : n ≤ 2 * w) :
    copyEnds dst off src n w = overwrite dst off (src.take n) := by
  have hlength : (src.take n).length = n := by rw [List.length_take, Nat.min_eq_left hsrc]
  have hends := overwrite_ends dst off (src.take n) w (by omega) (by omega) (by omega)
  rw [hlength, List.take_take, Nat.min_eq_left hw, List.drop_take,
    show n - (n - w) = w by omega] at hends
  rw [copyEnds, Nat.add_sub_assoc hw, hends]

theorem copySmall_eq {dst : List UInt8} {off : Nat} {src : List UInt8} {n : Nat}
    (hdst : off + n ≤ dst.length) (hsrc : n ≤ src.length) :
    copySmall dst off src n = overwrite dst off (src.take n) := by
  unfold copySmall
  repeat' split
  any_goals exact copyEnds_eq hdst hsrc (by omega) (by omega)
  · rfl
  · next hone => rw [hone]
  · rw [show n = 0 by omega, List.take_zero, overwrite_nil]

theorem absSize_eq {size : Int} (h : IsInt32 size) : absSize size = size.natAbs := by
  unfold absSize
  split
  case isTrue hneg => exact uint32_neg h hneg
  case isFalse hpos => exact uint32_of_nonneg h (by omega)

theorem fillRequest_eq {reqBuffer data : List UInt8} {size : Int}
    (hlength : reqBuffer.length < 2 ^ 31) (hsize : IsInt32 size)
    (hdata : data.length = size.natAbs) :
    fillRequest reqBuffer (some data) size =
      if reqBuffer.length < size.natAbs then .error .bufferTooSmall
      else .ok (overwrite reqBuffer (sizedOffset reqBuffer.length size) data) := by
  unfold fillRequest
  split
  case isTrue hzero =>
    have hnil : data = [] := List.length_eq_zero_iff.mp (by omega)
    rw [if_neg (by omega), hnil, overwrite_nil]
  case isFalse hzero =>
    have hmax : uint32 (int32 reqBuffer.length) = reqBuffer.length := by
      rw [int32_natCast hlength, uint32_natCast (by omega)]
    simp only [absSize_eq hsize, hmax]
    split
    · rfl
    case isFalse hfits =>
      have htake : data.take size.natAbs = data := List.take_of_length_le (by omega)
      unfold sizedOffset
      split
      · rw [copySmall_eq (by omega) (by omega), htake]
      · rw [uint32_sub (by omega) (by omega), copySmall_eq (by omega) (by omega), htake]

theorem fillAndSend_zero (s : Slot) (data : Option (List UInt8)) (msgType : MsgType) :
    fillAndSend s data 0 msgType = fillAndSend s (some []) 0 msgType := by
  unfold fillAndSend fillRequest
  rw [if_pos rfl, if_pos rfl]

theorem fillAndSend_eq {s : Slot} {data : List UInt8} {size : Int}
    (hlength : s.reqBuffer.length < 2 ^ 31) (hsize : IsInt32 size)
    (hdata : data.length = size.natAbs) (hfits : size.natAbs ≤ s.reqBuffer.length)
    (msgType : MsgType) :
    fillAndSend s (some data) size msgType =
      .ok { s with
        reqBuffer := overwrite s.reqBuffer (sizedOffset s.reqBuffer.length size) data
        reqSize := size
        msgType } := by
  rw [fillAndSend, fillRequest_eq hlength hsize hdata, if_neg (by omega)]
  simp only [bind, Except.bind, sendAcquired, absSize_eq hsize]
  rw [if_neg (by rw [length_overwrite_sized hdata hfits]; omega)]

theorem fillRequest_move (layout : Layout) {s : Slot} {data bytes : List UInt8} {size : Int}
    (hlength : s.reqBuffer.length < 2 ^ 31) (hsize : IsInt32 size)
    (hdata : data.length = size.natAbs) (h : fillRequest s.reqBuffer (some data) size = .ok bytes) :
    hostStep layout s .owned (.fillRequest bytes) = some ({ s with reqBuffer := bytes }, .owned) := by
  rw [fillRequest_eq hlength hsize hdata] at h
  split at h
  · cases h
  case isFalse hfits =>
    cases h
    exact if_pos (length_overwrite_sized hdata (by omega))

theorem sendAcquired_refuses_iff (layout : Layout) (now : Nat) (s : Slot) (call : HostCall)
    (hsize : IsInt32 call.size) :
    sendAcquired s call.size call.msgType = .error .bufferTooSmall ↔
      sendStep layout now s call .checkSize ≠ (s, .running .storeReqSize) := by
  rw [sendAcquired, absSize_eq hsize, sendStep]
  by_cases hfits : s.reqBuffer.length < call.size.natAbs
  · rw [if_pos hfits, if_pos hfits]
    split <;> simp
  · rw [if_neg hfits, if_neg hfits]
    simp

theorem absResp_eq {s : Slot} (hsize : IsInt32 s.respSize) :
    absResp s = min s.respSize.natAbs s.respBuffer.length := by
  unfold absResp
  rw [absSize_eq hsize]
  split <;> omega

/-- What the three copying calls take out of the response area is what the threads of the
host model take. -/
theorem copyResponse_eq {s : Slot} (hlength : s.respBuffer.length < 2 ^ 31)
    (hsize : IsInt32 s.respSize) (outResp : List UInt8) :
    copyResponse s outResp = (copyOut s.respBuffer s.respSize,
      ((min s.respSize.natAbs s.respBuffer.length : Nat) : Int)) := by
  unfold copyResponse copyOut
  simp only [absResp_eq hsize]
  generalize hn : min s.respSize.natAbs s.respBuffer.length = n
  have hroom : ((outResp.take n).rightpad n 0).length = n := by
    simp only [List.rightpad, List.length_append, List.length_take, List.length_replicate]
    omega
  rw [int32_natCast (by omega)]
  congr 1
  split
  case isTrue hpos =>
    split
    · rw [copySmall_eq (by omega) (by omega), overwrite_all _ _ (by simp; omega), sized,
        if_pos (by omega), Int.natAbs_natCast]
    · have hdrop : n ≤ (s.respBuffer.drop (s.respBuffer.length - n)).length := by
        rw [List.length_drop]; omega
      rw [uint32_sub (by omega) (by omega), copySmall_eq (by omega) hdrop,
        overwrite_all _ _ (by simp; omega), sized, if_neg (by omega), Int.natAbs_neg,
        Int.natAbs_natCast]
  case isFalse hzero =>
    have hnil : n = 0 := by omega
    subst hnil
    simp [sized]

theorem ZeroCopySlot.getRespSize_eq {s : Slot} (hlength : s.respBuffer.length < 2 ^ 31)
    (hsize : IsInt32 s.respSize) :
    getRespSize s = (min s.respSize.natAbs s.respBuffer.length : Nat) := by
  rw [getRespSize, absResp_eq hsize, int32_natCast (by omega)]

theorem ZeroCopySlot.getRespBuffer_eq {s : Slot} (hlength : s.respBuffer.length < 2 ^ 31)
    (hsize : IsInt32 s.respSize) :
    getRespBuffer s = sizedOffset s.respBuffer.length s.respSize := by
  unfold getRespBuffer sizedOffset
  split
  · rfl
  case isFalse hneg =>
    rw [uint32_neg hsize (by omega)]
    simp only
    split
    · rw [uint32_sub (by omega) (by omega)]
      omega
    · rw [uint32_sub (by omega) (by omega)]

theorem requestArea_eq {s : Slot} (hlength : s.reqBuffer.length < 2 ^ 31)
    (hsize : IsInt32 s.reqSize) :
    requestArea s = if s.reqBuffer.length < s.reqSize.natAbs then none
      else some (sizedOffset s.reqBuffer.length s.reqSize, (s.reqSize.natAbs : Int)) := by
  unfold requestArea
  simp only [absSize_eq hsize]
  split
  · rfl
  case isFalse hfits =>
    rw [int32_natCast (by omega), uint32_sub (by omega) (by omega), sizedOffset]

theorem answer_eq {s : Slot} {respSize : Int} (hsize : IsInt32 respSize) (bytes : List UInt8) :
    ((answer s bytes respSize).respSize, (answer s bytes respSize).msgType,
        (answer s bytes respSize).respBuffer) =
      answerAfter { s with respBuffer := bytes }
        (answerWrites { s with respBuffer := bytes } respSize) := by
  unfold answer answerWrites
  simp only [absSize_eq hsize]
  split <;> rfl

end Cpp

theorem int32_neg {n : Int} (h : IsInt32 n) : int32 (-n) = negInt32 n := by
  unfold negInt32
  split
  case isTrue hmin =>
    subst hmin
    decide
  case isFalse hmin =>
    obtain ⟨hlow, hhigh⟩ := h
    exact int32_eq_self ⟨by omega, by omega⟩

namespace Go

theorem requestSlice_eq {s : Slot} (hlength : s.reqBuffer.length < 2 ^ 31)
    (hsize : IsInt32 s.reqSize) :
    requestSlice s =
      if sizeFits s s.reqSize then some (sized s.reqBuffer s.reqSize) else none := by
  unfold requestSlice sizeFits
  simp only [int32_natCast hlength, int32_neg hsize]
  by_cases hpos : 0 ≤ s.reqSize
  · simp only [if_pos hpos, decide_eq_true_eq, sized]
    rw [show s.reqSize.toNat = s.reqSize.natAbs by omega]
    split
    · rw [if_neg (by omega)]
    · rw [if_pos (by omega)]
  · simp only [if_neg hpos, Bool.and_eq_true, decide_eq_true_eq]
    split
    case isTrue hbad => rw [if_neg (by omega)]
    case isFalse hgood =>
      have hneg : negInt32 s.reqSize = s.reqSize.natAbs := by
        unfold negInt32 at hgood ⊢
        split at hgood <;> omega
      rw [if_pos (by omega), hneg, int32_eq_self ⟨by omega, by omega⟩, sized, if_neg hpos,
        show ((s.reqBuffer.length : Int) - s.reqSize.natAbs).toNat =
          s.reqBuffer.length - s.reqSize.natAbs by omega,
        List.take_of_length_le]
      rw [List.length_drop]
      omega

theorem fillRequest_eq {s : Slot} {data : List UInt8} {msgType : MsgType}
    (hlength : s.reqBuffer.length < 2 ^ 31) (hfits : data.length ≤ s.reqBuffer.length) :
    fillRequest s data msgType =
      .ok { s with
        reqBuffer := GuestCall.place ⟨data, msgType⟩ s.reqBuffer
        reqSize := GuestCall.reqSize ⟨data, msgType⟩
        msgType } := by
  unfold fillRequest GuestCall.place GuestCall.reqSize
  rw [if_neg (by omega)]
  simp only [int32_natCast (by omega : data.length < 2 ^ 31)]
  split
  · rw [int32_eq_self ⟨by omega, by omega⟩, copyAt_eq _ _ _ (by omega), overwrite,
      List.drop_eq_nil_of_le (by omega), List.append_nil]
  · rw [copyAt_eq _ _ _ (by omega), overwrite, List.take_zero, List.nil_append, Nat.zero_add]

theorem length_respData (buffer : Option (List UInt8)) (n : Nat) :
    (respData buffer n).length = n := by
  unfold respData
  split
  · split
    · rw [List.length_take]
      omega
    · exact List.length_replicate
  · exact List.length_replicate

theorem copyAt_respData (buffer : Option (List UInt8)) {n : Nat} {bytes : List UInt8}
    (h : bytes.length = n) : copyAt (respData buffer n) 0 bytes = bytes := by
  have hroom := length_respData buffer n
  rw [copyAt_eq _ _ _ (by omega), overwrite_all _ _ (by omega)]

theorem takeResponse_eq {s : Slot} (hlength : s.respBuffer.length < 2 ^ 31)
    (hsize : IsInt32 s.respSize) (buffer : Option (List UInt8)) :
    takeResponse s buffer =
      if s.msgType = .systemError then .failed .systemError
      else readResponse s.respBuffer s.respSize := by
  unfold takeResponse readResponse
  simp only [int32_natCast hlength, int32_neg hsize]
  split
  · rfl
  split
  case isFalse.isTrue hpos =>
    rw [show s.respSize.toNat = s.respSize.natAbs by omega]
    split
    · rw [if_pos (by omega)]
    · rw [if_neg (by omega), copyAt_respData]
      rw [List.length_take]
      omega
  case isFalse.isFalse hneg =>
    split
    · rfl
    case isFalse hmin =>
      generalize hr : negInt32 s.respSize = rLen at hmin ⊢
      split
      · rw [if_pos (by omega)]
      · rw [if_neg (by omega), int32_eq_self ⟨by omega, by omega⟩,
          show ((s.respBuffer.length : Int) - rLen).toNat =
            s.respBuffer.length - rLen.natAbs by omega, copyAt_respData]
        rw [List.length_drop]
        omega

end Go

end ShmIpc.Slots
