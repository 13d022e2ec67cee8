import ShmIpc.Stream.PipelinedProgress

/-!
The parts of the Go sender that run on the calling goroutine alone: `sendStart`, and the
chunk loop of a sender with one chunk in flight. They are functions of what the pool and the
transport answer, and return the messages they have put on the wire with their result.
-/

namespace ShmIpc.Stream.Go
open Library

variable {τ : Type}

inductive StartError (τ : Type)
  | tooLarge
  | noFreeSlot (cause : τ)
  | tooSmallForStreamHeader
  | tooSmallForChunkHeader
  | transport (cause : τ)
  | rejected
  deriving DecidableEq

/-- One call of `acquireSlot`, which may give up, and of `slot.Send` on what it got. -/
structure Round (τ : Type) where
  refused : Option τ
  reply : Reply τ

def Round.succeeds (r : Round τ) : Bool := r.refused.isNone && r.reply.succeeds

def sendStart (P : GuestSend) (r : Round τ) :
    List (MsgType × List UInt8) × Except (StartError τ) Nat :=
  if P.data.length > MaxStreamSize then ([], .error .tooLarge)
  else
    match r.refused with
    | some cause => ([], .error (.noFreeSlot cause))
    | none =>
      if P.bufLen < streamHeaderSize then ([], .error .tooSmallForStreamHeader)
      else if P.bufLen ≤ chunkHeaderSize then ([], .error .tooSmallForChunkHeader)
      else
        ([(.streamStart, P.startMsg)],
          match r.reply with
          | .failed cause => .error (.transport cause)
          | .answered respType =>
            if respType = .systemError then .error .rejected else .ok P.maxPayload)

theorem lt_blockEnd (P : ChunkPhase) {offset : Nat} (h : offset < P.data.length) :
    P.data.length - P.blockEnd offset < P.data.length - offset := by
  have hpos := P.maxPayload_pos
  rw [GuestSend.blockEnd]
  split
  · omega
  · omega

/-- The loop of `sendChunksInline`; `round` counts its rounds. -/
def sendChunksInline (P : ChunkPhase) (rounds : Nat → Round τ) (round idx offset : Nat) :
    List (MsgType × List UInt8) × Option (ChunkError τ) :=
  if offset < P.data.length then
    match (rounds round).refused with
    | some cause => ([], some (.noFreeSlot cause))
    | none =>
      match P.sendChunk idx offset with
      | none => ([], some .bufferOverflow)
      | some msg =>
        match (rounds round).reply.error idx with
        | some e => ([(.streamChunk, msg)], some e)
        | none =>
          let rest := sendChunksInline P rounds (round + 1) ((idx + 1) % 2 ^ 32)
            (P.blockEnd offset)
          ((.streamChunk, msg) :: rest.1, rest.2)
  else ([], none)
termination_by P.data.length - offset
decreasing_by exact lt_blockEnd P ‹_›

theorem sendStart_succeeds (P : ChunkPhase) (hsize : P.data.length ≤ MaxStreamSize) {r : Round τ}
    (h : r.succeeds = true) :
    sendStart P.toGuestSend r = ([(.streamStart, P.startMsg)], .ok P.maxPayload) := by
  have hroom := P.room
  rw [Round.succeeds, Bool.and_eq_true, Option.isNone_iff_eq_none] at h
  have hlarge : ¬ P.data.length > MaxStreamSize := Nat.not_lt.mpr hsize
  have hstart : ¬ P.bufLen < streamHeaderSize := Nat.not_lt.mpr (Nat.le_of_lt hroom)
  have hchunk : ¬ P.bufLen ≤ chunkHeaderSize := Nat.not_le.mpr hroom
  simp only [sendStart, if_neg hlarge, h.1, if_neg hstart, if_neg hchunk]
  cases hreply : r.reply with
  | failed cause =>
    rw [hreply] at h
    cases h.2
  | answered respType =>
    rw [hreply] at h
    simp only [if_neg (of_decide_eq_true h.2)]

theorem sendStart_tooLarge (P : GuestSend) (h : MaxStreamSize < P.data.length) (r : Round τ) :
    sendStart P r = ([], .error .tooLarge) := by
  rw [sendStart, if_pos h]

theorem sendChunksInline_succ (P : ChunkPhase) (hP : P.asHost.Sized) (rounds : Nat → Round τ)
    (hrounds : ∀ n, (rounds n).succeeds = true) {i : Nat} (hi : i < P.asHost.totalChunks) :
    sendChunksInline P rounds i i (P.offsetOf i) =
      let rest := sendChunksInline P rounds (i + 1) (i + 1) (P.offsetOf (i + 1))
      ((.streamChunk, P.asHost.chunk i) :: rest.1, rest.2) := by
  have hround := hrounds i
  rw [Round.succeeds, Bool.and_eq_true, Option.isNone_iff_eq_none] at hround
  have hlt := (GuestSend.offsetOf_lt hP i).mpr hi
  have hn := hP.totalChunks_le
  have hoffset := GuestSend.offsetOf_eq hP i hi
  rw [sendChunksInline, if_pos hlt]
  simp only [hround.1, hoffset, GuestSend.sendChunk_eq hP i hi, Reply.error_eq_none hround.2,
    GuestSend.blockEnd_eq hP i hi, Nat.mod_eq_of_lt (show i + 1 < 2 ^ 32 by omega)]

theorem sendChunksInline_eq (P : ChunkPhase) (hP : P.asHost.Sized) (rounds : Nat → Round τ)
    (hrounds : ∀ n, (rounds n).succeeds = true) (left : Nat) :
    ∀ i, i + left = P.asHost.totalChunks →
      sendChunksInline P rounds i i (P.offsetOf i) =
        ((List.range' i left).map fun j => (.streamChunk, P.asHost.chunk j), none) := by
  induction left with
  | zero =>
    intro i hi
    have hend : ¬ P.offsetOf i < P.data.length := by
      rw [GuestSend.offsetOf_lt hP]
      omega
    rw [sendChunksInline, if_neg hend]
    rfl
  | succ left ih =>
    intro i hi
    rw [sendChunksInline_succ P hP rounds hrounds (by omega), ih (i + 1) (by omega)]
    rfl

end ShmIpc.Stream.Go
