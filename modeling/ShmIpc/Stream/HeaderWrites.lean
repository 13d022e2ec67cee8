import ShmIpc.Library.Placement
import ShmIpc.Stream.GuestSender

/-!
How a sender gets a message into the request buffer of a slot. The C++ sender fills in a
zeroed struct and copies it over, the Go sender puts the fields one by one into the buffer
itself, on top of whatever the last request left there. Both are followed by a copy of the
payload, and the message is as much of the buffer as `Send` is told.
-/

namespace ShmIpc.Stream
open Library

namespace Cpp

/-- `StreamHeader header{}` with its four fields assigned. -/
def streamHeaderImage (streamId totalSize totalChunks appMsgType : Nat) : List UInt8 :=
  applyWrites (.replicate streamHeaderSize 0)
    [(0, toBytes 8 streamId), (8, toBytes 8 totalSize), (16, toBytes 4 totalChunks),
      (20, toBytes 4 appMsgType)]

/-- `ChunkHeader ch{}` with all its fields assigned but `padding`. -/
def chunkHeaderImage (streamId chunkIndex payloadSize dstOffset : Nat) : List UInt8 :=
  applyWrites (.replicate chunkHeaderSize 0)
    [(0, toBytes 8 streamId), (8, toBytes 4 chunkIndex), (12, toBytes 4 payloadSize),
      (16, toBytes 4 dstOffset)]

def writeStart (P : SendCall) (buf : List UInt8) : List UInt8 :=
  overwrite buf 0 (streamHeaderImage P.streamId P.data.length P.totalChunks P.appMsgType)

def writeChunk (P : SendCall) (chunkIndex remaining : Nat) (buf : List UInt8) : List UInt8 :=
  let sent := P.data.length - remaining
  let size := P.currentChunkSize remaining
  let buf := overwrite buf 0 (chunkHeaderImage P.streamId chunkIndex size (sent % 2 ^ 32))
  overwrite buf chunkHeaderSize ((P.data.drop sent).take size)

end Cpp

namespace Go

/-- `putStreamHeader`. -/
def putStreamFields (buf : List UInt8) (streamID totalSize totalChunks appMsgType : Nat) :
    List UInt8 :=
  applyWrites buf
    [(0, toBytes 8 streamID), (8, toBytes 8 totalSize), (16, toBytes 4 totalChunks),
      (20, toBytes 4 appMsgType)]

/-- `putChunkHeader`, which puts the padding down as well. -/
def putChunkFields (buf : List UInt8) (streamID chunkIndex payloadSize dstOffset : Nat) :
    List UInt8 :=
  applyWrites buf
    [(0, toBytes 8 streamID), (8, toBytes 4 chunkIndex), (12, toBytes 4 payloadSize),
      (16, toBytes 4 dstOffset), (20, toBytes 4 0)]

def writeStart (P : GuestSend) (buf : List UInt8) : List UInt8 :=
  putStreamFields buf P.streamID.toNat P.data.length (P.totalChunks % 2 ^ 32) P.appMsgType.toNat

def writeChunk (P : GuestSend) (idx offset : Nat) (buf : List UInt8) : List UInt8 :=
  let payload := P.payload offset
  overwrite (putChunkFields buf P.streamID.toNat idx (payload.length % 2 ^ 32) (offset % 2 ^ 32))
    chunkHeaderSize payload

end Go

section Headers

variable (buf : List UInt8)

theorem applyWrites_header {ws : List (Nat × List UInt8)} {header : List UInt8}
    (hstacked : Stacked 0 ws) (hfields : (ws.map Prod.snd).flatten = header)
    (hlen : header.length ≤ buf.length) :
    applyWrites buf ws = header ++ buf.drop header.length := by
  subst hfields
  have hwrites := applyWrites_stacked buf 0 ws hstacked (by omega)
  rw [Nat.zero_add, List.take_zero, List.nil_append] at hwrites
  exact hwrites

theorem putStreamFields_eq (h : StreamHeader) (hlen : streamHeaderSize ≤ buf.length) :
    Go.putStreamFields buf h.streamId h.totalSize h.totalChunks h.appMsgType =
      putStreamHeader h ++ buf.drop streamHeaderSize := by
  rw [← length_putStreamHeader h] at hlen ⊢
  exact applyWrites_header buf (by simp only [Stacked, length_toBytes, and_self])
    (by simp [putStreamHeader]) hlen

theorem streamHeaderImage_eq (h : StreamHeader) :
    Cpp.streamHeaderImage h.streamId h.totalSize h.totalChunks h.appMsgType =
      putStreamHeader h := by
  have hfields := putStreamFields_eq (.replicate streamHeaderSize 0) h
    (Nat.le_of_eq List.length_replicate.symm)
  rw [List.drop_replicate, Nat.sub_self, List.replicate_zero, List.append_nil] at hfields
  exact hfields

theorem putChunkFields_eq (h : ChunkHeader) (hpad : h.padding = 0)
    (hlen : chunkHeaderSize ≤ buf.length) :
    Go.putChunkFields buf h.streamId h.chunkIndex h.payloadSize h.dstOffset =
      putChunkHeader h ++ buf.drop chunkHeaderSize := by
  rw [← length_putChunkHeader h] at hlen ⊢
  exact applyWrites_header buf (by simp only [Stacked, length_toBytes, and_self])
    (by simp [putChunkHeader, hpad]) hlen

theorem chunkHeaderImage_eq (h : ChunkHeader) (hpad : h.padding = 0) :
    Cpp.chunkHeaderImage h.streamId h.chunkIndex h.payloadSize h.dstOffset = putChunkHeader h := by
  rw [Cpp.chunkHeaderImage, applyWrites_header (.replicate chunkHeaderSize 0)
    (by simp only [Stacked, length_toBytes, and_self]) rfl
    (by simp [length_toBytes, chunkHeaderSize])]
  simp [putChunkHeader, hpad, chunkHeaderSize, length_toBytes]
  rfl

end Headers

section Messages

variable (buf : List UInt8)

theorem Cpp.take_writeStart (P : SendCall) :
    (Cpp.writeStart P buf).take streamHeaderSize = P.startMsg := by
  have himage := streamHeaderImage_eq ⟨P.streamId, P.data.length, P.totalChunks, P.appMsgType⟩
  have htake := take_overwrite buf 0 P.startMsg (Nat.zero_le _)
  rw [Nat.zero_add, SendCall.startMsg, length_putStreamHeader, List.take_zero, List.nil_append]
    at htake
  rw [Cpp.writeStart, himage, SendCall.startMsg]
  exact htake

theorem Go.take_writeStart (P : GuestSend) (hlen : streamHeaderSize ≤ buf.length) :
    (Go.writeStart P buf).take streamHeaderSize = P.startMsg := by
  have hfields := putStreamFields_eq buf
    ⟨P.streamID.toNat, P.data.length, P.totalChunks % 2 ^ 32, P.appMsgType.toNat⟩ hlen
  rw [Go.writeStart, hfields, GuestSend.startMsg, List.take_left' (length_putStreamHeader _)]

theorem take_overwrite_payload (h : ChunkHeader) (rest payload : List UInt8) :
    (overwrite (putChunkHeader h ++ rest) chunkHeaderSize payload).take
      (chunkHeaderSize + payload.length) = putChunkHeader h ++ payload := by
  rw [take_overwrite _ _ _ (by rw [List.length_append, length_putChunkHeader]; omega),
    List.take_left' (length_putChunkHeader h)]

theorem Cpp.take_writeChunk (P : SendCall) (chunkIndex remaining : Nat)
    (hremaining : remaining ≤ P.data.length) :
    (Cpp.writeChunk P chunkIndex remaining buf).take
      (chunkHeaderSize + P.currentChunkSize remaining) = P.chunkMsg chunkIndex remaining := by
  have himage := chunkHeaderImage_eq ⟨P.streamId, chunkIndex, P.currentChunkSize remaining,
    (P.data.length - remaining) % 2 ^ 32, 0⟩ rfl
  have hsize : P.currentChunkSize remaining ≤ remaining := by
    rw [SendCall.currentChunkSize]
    split
    · omega
    · exact Nat.le_refl _
  have hlen : ((P.data.drop (P.data.length - remaining)).take
      (P.currentChunkSize remaining)).length = P.currentChunkSize remaining := by
    rw [List.length_take, List.length_drop]
    omega
  have hfront : ∀ h : ChunkHeader, overwrite buf 0 (putChunkHeader h) =
      putChunkHeader h ++ buf.drop chunkHeaderSize := by
    intro h
    rw [overwrite, List.take_zero, List.nil_append, Nat.zero_add, length_putChunkHeader]
  have htake := take_overwrite_payload ⟨P.streamId, chunkIndex, P.currentChunkSize remaining,
    (P.data.length - remaining) % 2 ^ 32, 0⟩ (buf.drop chunkHeaderSize)
    ((P.data.drop (P.data.length - remaining)).take (P.currentChunkSize remaining))
  rw [hlen] at htake
  simp only [Cpp.writeChunk, himage, hfront, htake, SendCall.chunkMsg]

theorem Go.take_writeChunk (P : GuestSend) (idx offset : Nat) {msg : List UInt8}
    (hmsg : P.sendChunk idx offset = some msg) (hlen : chunkHeaderSize ≤ buf.length) :
    (Go.writeChunk P idx offset buf).take (chunkHeaderSize + (P.payload offset).length) = msg := by
  have hfields := putChunkFields_eq buf ⟨P.streamID.toNat, idx, (P.payload offset).length % 2 ^ 32,
    offset % 2 ^ 32, 0⟩ rfl hlen
  simp only [GuestSend.sendChunk] at hmsg
  split at hmsg
  · cases hmsg
  · cases hmsg
    simp only [Go.writeChunk, hfields]
    exact take_overwrite_payload _ _ _

end Messages

end ShmIpc.Stream
