import ShmIpc.Slots.GuestHandle
import ShmIpc.Slots.RoundTrip

/-!
The size checks of the calls that publish a request. Each compares an absolute value with
the request capacity, and each computes that value in its own way: four C++ calls negate
in unsigned arithmetic, `SendFlatBuffer` takes a size without a sign and stores its
negation, and the Go handle negates in signed arithmetic, where the least integer is its
own negation.

A call is followed up to the point where it has published or returned; without
interference the steps of the slot models do the same.
-/

namespace ShmIpc.Slots

open Library

/-- The slot once a call has published its request, or has returned with an error. -/
structure Attempt (ε : Type) where
  slot : Slot
  error : Option ε

/-- The header stores of a send and the store that publishes it. -/
def Slot.publish (s : Slot) (layout : Layout) (reqSize : Int) (msgType : MsgType) : Slot :=
  { s with
    reqSize := reqSize
    msgType := msgType
    msgSeq := s.nextSeq
    nextSeq := (s.nextSeq + layout.msgSeqStride) % seqPeriod
    activeWait := true
    state := .reqReady }

namespace Cpp

/-- The check against `maxReqSize` and what follows it up to the publication. -/
def attempt (layout : Layout) (s onRefusal : Slot) (absSize : Nat) (reqSize : Int)
    (msgType : MsgType) : Attempt Error :=
  if absSize > s.reqBuffer.length then ⟨onRefusal, some .bufferTooSmall⟩
  else ⟨s.publish layout reqSize msgType, none⟩

def SendAcquired.attempt (layout : Layout) (s : Slot) (size : Int) (msgType : MsgType) :
    Attempt Error :=
  Cpp.attempt layout s { s with state := .free } (absSize size) size msgType

def SendAcquiredAsync.attempt (layout : Layout) (s : Slot) (size : Int) (msgType : MsgType) :
    Attempt Error :=
  Cpp.attempt layout s { s with state := .free } (absSize size) size msgType

/-- The lease is renewed between the sequence number and the publication. -/
def SendHeld.attempt (layout : Layout) (now : Nat) (s : Slot) (size : Int) (msgType : MsgType) :
    Attempt Error :=
  let r := Cpp.attempt layout s s (absSize size) size msgType
  if r.error.isSome then r else { r with slot := { r.slot with lease := now } }

def ZeroCopySlot.sendAttempt (layout : Layout) (s : Slot) (size : Int) (msgType : MsgType) :
    Attempt Error :=
  Cpp.attempt layout s s (absSize size) size msgType

/-- `SendFlatBuffer` converts the size as it is, so a negative one counts as large. -/
def ZeroCopySlot.sendFlatBufferAttempt (layout : Layout) (s : Slot) (size : Int) :
    Attempt Error :=
  Cpp.attempt layout s s (uint32 size) (int32 (-size)) .flatbuffer

end Cpp

/-- `GuestSlot.SendWithTimeout`, and `Send` with the default timeout. -/
def Go.GuestSlot.attempt (layout : Layout) (s : Slot) (size : Int) (msgType : MsgType) :
    Attempt HandleError :=
  let absSize := if size < 0 then int32 (-size) else size
  if absSize > s.reqBuffer.length then ⟨s, some (.sizeExceeds absSize s.reqBuffer.length)⟩
  else ⟨s.publish layout size msgType, none⟩

/-- A call publishes only a size that fits, which its peer then accepts; otherwise it
returns an error and has at most given the slot back. -/
def Attempt.Bounded {ε : Type} (s : Slot) (size : Int) (accepts : Slot → Bool)
    (r : Attempt ε) : Prop :=
  match r.error with
  | none => size.natAbs ≤ s.reqBuffer.length ∧ r.slot.state = .reqReady ∧
      r.slot.reqBuffer = s.reqBuffer ∧ accepts r.slot = true
  | some _ => r.slot = s ∨ r.slot = { s with state := .free }

def Go.acceptsRequest (s : Slot) : Bool := (Go.requestSlice s).isSome

def Cpp.acceptsRequest (s : Slot) : Bool := (Cpp.requestArea s).isSome

section Bounds

variable {s : Slot} {size : Int}

theorem go_accepts (hlength : s.reqBuffer.length < 2 ^ 31) (hsize : IsInt32 s.reqSize)
    (hfits : s.reqSize.natAbs ≤ s.reqBuffer.length) : Go.acceptsRequest s = true := by
  unfold Go.acceptsRequest
  rw [Go.requestSlice_eq hlength hsize, sizeFits_of_le hlength hfits]
  rfl

theorem cpp_accepts (hlength : s.reqBuffer.length < 2 ^ 31) (hsize : IsInt32 s.reqSize)
    (hfits : s.reqSize.natAbs ≤ s.reqBuffer.length) : Cpp.acceptsRequest s = true := by
  unfold Cpp.acceptsRequest
  rw [Cpp.requestArea_eq hlength hsize, if_neg (Nat.not_lt.mpr hfits)]
  rfl

variable (layout : Layout)

theorem guestSlot_min (msgType : MsgType) :
    Go.GuestSlot.attempt layout s (-2 ^ 31) msgType =
      ⟨s.publish layout (-2 ^ 31) msgType, none⟩ := by
  have habs : (if (-2 ^ 31 : Int) < 0 then int32 (-(-2 ^ 31)) else -2 ^ 31) = -2 ^ 31 := by decide
  unfold Go.GuestSlot.attempt
  simp only [habs]
  rw [if_neg (by omega)]

variable (hlength : s.reqBuffer.length < 2 ^ 31)

include hlength

/-- The check bounds the request if the value it compares is no smaller than the size
given, and no smaller than the one stored. -/
theorem attempt_bounded {onRefusal : Slot} {absSize : Nat} {reqSize : Int} (msgType : MsgType)
    (hrefusal : onRefusal = s ∨ onRefusal = { s with state := .free })
    (habs : absSize ≤ s.reqBuffer.length →
      size.natAbs ≤ absSize ∧ IsInt32 reqSize ∧ reqSize.natAbs ≤ absSize) :
    (Cpp.attempt layout s onRefusal absSize reqSize msgType).Bounded s size Go.acceptsRequest := by
  unfold Cpp.attempt
  split
  case isTrue => exact hrefusal
  case isFalse hfits =>
    obtain ⟨hgiven, hint, hstored⟩ := habs (Nat.le_of_not_lt hfits)
    exact ⟨by omega, rfl, rfl, go_accepts hlength hint (by
      show reqSize.natAbs ≤ s.reqBuffer.length
      omega)⟩

theorem unsigned_bounded {onRefusal : Slot} (msgType : MsgType) (hsize : IsInt32 size)
    (hrefusal : onRefusal = s ∨ onRefusal = { s with state := .free }) :
    (Cpp.attempt layout s onRefusal (Cpp.absSize size) size msgType).Bounded s size
      Go.acceptsRequest := by
  apply attempt_bounded layout hlength msgType hrefusal
  intro _
  rw [Cpp.absSize_eq hsize]
  exact ⟨Nat.le_refl _, hsize, Nat.le_refl _⟩

theorem sendHeld_bounded (now : Nat) (msgType : MsgType) (hsize : IsInt32 size) :
    (Cpp.SendHeld.attempt layout now s size msgType).Bounded s size Go.acceptsRequest := by
  have hbounded : (Cpp.attempt layout s s (Cpp.absSize size) size msgType).Bounded s size
      Go.acceptsRequest := unsigned_bounded layout hlength msgType hsize (.inl rfl)
  unfold Cpp.SendHeld.attempt
  simp only
  unfold Attempt.Bounded at hbounded ⊢
  cases herror : (Cpp.attempt layout s s (Cpp.absSize size) size msgType).error with
  | none =>
    rw [herror] at hbounded
    simp only [Option.isSome_none, Bool.false_eq_true, if_false]
    exact hbounded
  | some e =>
    rw [herror] at hbounded
    simp only [Option.isSome_some, if_true, herror]
    exact hbounded

theorem sendFlatBuffer_bounded (hsize : IsInt32 size) :
    (Cpp.ZeroCopySlot.sendFlatBufferAttempt layout s size).Bounded s size Go.acceptsRequest := by
  obtain ⟨hlow, hhigh⟩ := hsize
  apply attempt_bounded layout hlength .flatbuffer (.inl rfl)
  intro hle
  have hpos : 0 ≤ size := by
    unfold uint32 at hle
    omega
  have hneg : int32 (-size) = -size := int32_eq_self ⟨by omega, by omega⟩
  rw [uint32_of_nonneg ⟨hlow, hhigh⟩ hpos, hneg]
  exact ⟨Nat.le_refl _, ⟨by omega, by omega⟩, by omega⟩

theorem guestSlot_bounded (msgType : MsgType) (hsize : IsInt32 size) (hmin : size ≠ -2 ^ 31) :
    (Go.GuestSlot.attempt layout s size msgType).Bounded s size Cpp.acceptsRequest := by
  have habs : (if size < 0 then int32 (-size) else size) = size.natAbs := by
    rw [int32_neg hsize, negInt32, if_neg hmin]
    split <;> omega
  unfold Go.GuestSlot.attempt
  simp only [habs]
  split
  case isTrue => exact .inl rfl
  case isFalse hfits =>
    have hle : size.natAbs ≤ s.reqBuffer.length := by omega
    exact ⟨hle, rfl, rfl, cpp_accepts hlength hsize hle⟩

end Bounds

/-- Every C++ call keeps out-of-range requests from its peer, for every 32-bit size; the Go
handle does so exactly if the size is not the least one. -/
theorem published_requests_bounded_iff (layout : Layout) (now : Nat) (s : Slot) (size : Int)
    (msgType : MsgType) (hcapacity : s.reqBuffer.length ≤ 2 ^ 30) (hsize : IsInt32 size) :
    (Cpp.SendAcquired.attempt layout s size msgType).Bounded s size Go.acceptsRequest ∧
    (Cpp.SendAcquiredAsync.attempt layout s size msgType).Bounded s size Go.acceptsRequest ∧
    (Cpp.SendHeld.attempt layout now s size msgType).Bounded s size Go.acceptsRequest ∧
    (Cpp.ZeroCopySlot.sendAttempt layout s size msgType).Bounded s size Go.acceptsRequest ∧
    (Cpp.ZeroCopySlot.sendFlatBufferAttempt layout s size).Bounded s size Go.acceptsRequest ∧
    ((Go.GuestSlot.attempt layout s size msgType).Bounded s size Cpp.acceptsRequest ↔
      size ≠ -2 ^ 31) := by
  have hlength : s.reqBuffer.length < 2 ^ 31 := by omega
  refine ⟨unsigned_bounded layout hlength msgType hsize (.inr rfl),
    unsigned_bounded layout hlength msgType hsize (.inr rfl),
    sendHeld_bounded layout hlength now msgType hsize,
    unsigned_bounded layout hlength msgType hsize (.inl rfl),
    sendFlatBuffer_bounded layout hlength hsize, ?_,
    guestSlot_bounded layout hlength msgType hsize⟩
  rintro hbounded rfl
  rw [guestSlot_min layout msgType] at hbounded
  have hfits := hbounded.1
  omega

/-- A guest slot with two bytes for the request, held by a handle. -/
def twoByteSlot : Slot where
  state := .guestBusy
  gen := 0
  lease := 0
  msgSeq := 0
  reqSize := 0
  respSize := 0
  msgType := .normal
  reqBuffer := [0, 0]
  respBuffer := []
  activeWait := false
  nextSeq := 1

theorem published_requests_bounded_two :
    ((Go.GuestSlot.attempt ⟨false, 2⟩ twoByteSlot (-3) .normal).Bounded twoByteSlot (-3)
      Cpp.acceptsRequest) ∧
    (Cpp.ZeroCopySlot.sendFlatBufferAttempt ⟨false, 2⟩ twoByteSlot (-2 ^ 31)).Bounded twoByteSlot
      (-2 ^ 31) Go.acceptsRequest :=
  ⟨(published_requests_bounded_iff ⟨false, 2⟩ 0 twoByteSlot (-3) .normal (by decide)
      (by decide)).2.2.2.2.2.mpr (by decide),
    (published_requests_bounded_iff ⟨false, 2⟩ 0 twoByteSlot (-2 ^ 31) .normal (by decide)
      (by decide)).2.2.2.2.1⟩

/-- A send of the least size is published on a slot of two bytes, and the host refuses it. -/
theorem least_size_published :
    let r := Go.GuestSlot.attempt ⟨false, 2⟩ twoByteSlot (-2 ^ 31) .normal
    r.error = none ∧ r.slot.state = .reqReady ∧ r.slot.reqSize = -2 ^ 31 ∧
      Cpp.acceptsRequest r.slot = false := by
  decide

section Steps

/-- The steps of a host send taken one after the other, with nobody in between. -/
def sendSteps (layout : Layout) (now : Nat) (call : HostCall) :
    Nat → Slot × SendProgress → Slot × SendProgress
  | n + 1, (s, .running pc) => sendSteps layout now call n (sendStep layout now s call pc)
  | _, p => p

/-- The call that a host thread's send stands for. -/
def HostCall.attempt (call : HostCall) (layout : Layout) (now : Nat) (s : Slot) : Attempt Error :=
  match call.kind with
  | .acquired => Cpp.SendAcquired.attempt layout s call.size call.msgType
  | .async => Cpp.SendAcquiredAsync.attempt layout s call.size call.msgType
  | .held => Cpp.SendHeld.attempt layout now s call.size call.msgType
  | .zeroCopy => Cpp.ZeroCopySlot.sendAttempt layout s call.size call.msgType

theorem attempt_eq {layout : Layout} {now : Nat} {s : Slot} {call : HostCall}
    (hsize : IsInt32 call.size) :
    call.attempt layout now s =
      if call.size.natAbs > s.reqBuffer.length then
        ⟨if call.kind.keepsSlot then s else { s with state := .free }, some .bufferTooSmall⟩
      else
        ⟨if call.kind = .held then { s.publish layout call.size call.msgType with lease := now }
          else s.publish layout call.size call.msgType, none⟩ := by
  have hattempt : ∀ onRefusal, Cpp.attempt layout s onRefusal (Cpp.absSize call.size) call.size
      call.msgType = if call.size.natAbs > s.reqBuffer.length then
        ⟨onRefusal, some .bufferTooSmall⟩ else ⟨s.publish layout call.size call.msgType, none⟩ := by
    intro onRefusal
    rw [Cpp.absSize_eq hsize]
    rfl
  obtain ⟨kind, size, msgType⟩ := call
  cases kind with
  | acquired | async | zeroCopy => exact hattempt _
  | held =>
    simp only [HostCall.attempt, Cpp.SendHeld.attempt, hattempt]
    split
    · rfl
    · rfl

/-- The send of a host thread leaves the slot as the call does, up to the publication or
the return. -/
theorem sendSteps_attempt (layout : Layout) (now : Nat) (s : Slot) (call : HostCall)
    (hsize : IsInt32 call.size) :
    ∃ n, (sendSteps layout now call n (s, .running .checkSize)).1 =
      (call.attempt layout now s).slot := by
  have hfirst : ∀ n, sendSteps layout now call (n + 1) (s, .running .checkSize) =
      sendSteps layout now call n (sendStep layout now s call .checkSize) := fun _ => rfl
  by_cases hfits : call.size.natAbs > s.reqBuffer.length
  · refine ⟨2, ?_⟩
    rw [attempt_eq hsize, if_pos hfits, hfirst, sendStep, if_pos hfits]
    split
    · rfl
    · rfl
  · rw [attempt_eq hsize, if_neg hfits]
    obtain ⟨kind, size, msgType⟩ := call
    cases kind with
    | acquired | async | zeroCopy =>
      refine ⟨7, ?_⟩
      rw [hfirst, sendStep, if_neg hfits]
      rfl
    | held =>
      refine ⟨8, ?_⟩
      rw [hfirst, sendStep, if_neg hfits]
      rfl

def handleSteps (config : GuestConfig) (now : Nat) (send : HandleSend) :
    Nat → Slot × HandleProgress → Slot × HandleProgress
  | n + 1, (s, .running pc) => handleSteps config now send n (handleStep config now s send pc)
  | _, p => p

theorem handleSteps_attempt (config : GuestConfig) (now : Nat) (s : Slot) (send : HandleSend)
    (hsize : IsInt32 send.size) :
    ∃ n, (handleSteps config now send n (s, .running .checkSize)).1 =
      (Go.GuestSlot.attempt config.layout s send.size send.msgType).slot := by
  have hfirst : ∀ n, handleSteps config now send (n + 1) (s, .running .checkSize) =
      handleSteps config now send n (handleStep config now s send .checkSize) := fun _ => rfl
  have habs : (if send.size < 0 then int32 (-send.size) else send.size) = send.absSize := by
    rw [int32_neg hsize]
    rfl
  unfold Go.GuestSlot.attempt
  simp only [habs]
  by_cases hfits : send.absSize > s.reqBuffer.length
  · refine ⟨1, ?_⟩
    rw [hfirst, handleStep, if_pos hfits, if_pos hfits]
    rfl
  · refine ⟨7, ?_⟩
    rw [hfirst, handleStep, if_neg hfits, if_neg hfits]
    rfl

end Steps

end ShmIpc.Slots
