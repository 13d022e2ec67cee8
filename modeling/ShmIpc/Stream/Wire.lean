import ShmIpc.Library.Bytes
import ShmIpc.Protocol

/-!
The two 24-byte stream headers. Both peers read them field by field at fixed
offsets; the C++ side overlays a struct on the same bytes, which on the
supported little-endian target is the same reading. A message longer than its
header needs is legal, so parsing says nothing about the bytes that follow.
-/

namespace ShmIpc.Stream
open Library

structure StreamHeader where
  streamId : Nat
  totalSize : Nat
  totalChunks : Nat
  appMsgType : Nat
  deriving DecidableEq, Repr

structure ChunkHeader where
  streamId : Nat
  chunkIndex : Nat
  payloadSize : Nat
  dstOffset : Nat
  padding : Nat
  deriving DecidableEq, Repr

def streamHeaderSize : Nat := 24

def chunkHeaderSize : Nat := 24

def parseStreamHeader (req : List UInt8) : StreamHeader where
  streamId := readField req 0 8
  totalSize := readField req 8 8
  totalChunks := readField req 16 4
  appMsgType := readField req 20 4

def parseChunkHeader (req : List UInt8) : ChunkHeader where
  streamId := readField req 0 8
  chunkIndex := readField req 8 4
  payloadSize := readField req 12 4
  dstOffset := readField req 16 4
  padding := readField req 20 4

/-- The bytes a chunk message carries behind its header. -/
def chunkPayload (req : List UInt8) : List UInt8 :=
  (req.drop chunkHeaderSize).take (parseChunkHeader req).payloadSize

def putStreamHeader (h : StreamHeader) : List UInt8 :=
  toBytes 8 h.streamId ++ toBytes 8 h.totalSize ++ toBytes 4 h.totalChunks ++
    toBytes 4 h.appMsgType

def putChunkHeader (h : ChunkHeader) : List UInt8 :=
  toBytes 8 h.streamId ++ toBytes 4 h.chunkIndex ++ toBytes 4 h.payloadSize ++
    toBytes 4 h.dstOffset ++ toBytes 4 h.padding

/-- The ranges of the C struct's own field types. -/
structure StreamHeader.InRange (h : StreamHeader) : Prop where
  streamId : h.streamId < 2 ^ 64
  totalSize : h.totalSize < 2 ^ 64
  totalChunks : h.totalChunks < 2 ^ 32
  appMsgType : h.appMsgType < 2 ^ 32

structure ChunkHeader.InRange (h : ChunkHeader) : Prop where
  streamId : h.streamId < 2 ^ 64
  chunkIndex : h.chunkIndex < 2 ^ 32
  payloadSize : h.payloadSize < 2 ^ 32
  dstOffset : h.dstOffset < 2 ^ 32
  padding : h.padding < 2 ^ 32

theorem parseStreamHeader_inRange (req : List UInt8) :
    (parseStreamHeader req).InRange :=
  ⟨readField_lt req 0 8, readField_lt req 8 8, readField_lt req 16 4, readField_lt req 20 4⟩

theorem parseChunkHeader_inRange (req : List UInt8) :
    (parseChunkHeader req).InRange :=
  ⟨readField_lt req 0 8, readField_lt req 8 4, readField_lt req 12 4,
    readField_lt req 16 4, readField_lt req 20 4⟩

theorem length_putStreamHeader (h : StreamHeader) :
    (putStreamHeader h).length = streamHeaderSize := by
  simp [putStreamHeader, length_toBytes, streamHeaderSize]

theorem length_putChunkHeader (h : ChunkHeader) :
    (putChunkHeader h).length = chunkHeaderSize := by
  simp [putChunkHeader, length_toBytes, chunkHeaderSize]

/-- Reading one field of a header laid out as consecutive fields: everything
before it only matters through its length. -/
theorem readField_at (front back bytes : List UInt8) (off width n : Nat)
    (hbytes : bytes = front ++ toBytes width n ++ back) (hoff : front.length = off)
    (hn : n < 256 ^ width) : readField bytes off width = n := by
  subst hbytes hoff
  exact readField_append front back width n hn

theorem parseStreamHeader_put (h : StreamHeader) (hr : h.InRange) (rest : List UInt8) :
    parseStreamHeader (putStreamHeader h ++ rest) = h := by
  obtain ⟨streamId, totalSize, totalChunks, appMsgType⟩ := h
  simp only [parseStreamHeader, StreamHeader.mk.injEq]
  refine ⟨?_, ?_, ?_, ?_⟩
  · exact readField_at [] _ _ 0 8 streamId (by simp [putStreamHeader]; rfl) rfl hr.streamId
  · exact readField_at (toBytes 8 streamId) _ _ 8 8 totalSize
      (by simp [putStreamHeader]; rfl) (length_toBytes _ _) hr.totalSize
  · exact readField_at (toBytes 8 streamId ++ toBytes 8 totalSize) _ _ 16 4 totalChunks
      (by simp [putStreamHeader]; rfl) (by simp [length_toBytes]) hr.totalChunks
  · exact readField_at (toBytes 8 streamId ++ toBytes 8 totalSize ++ toBytes 4 totalChunks)
      rest _ 20 4 appMsgType (by simp [putStreamHeader]) (by simp [length_toBytes]) hr.appMsgType

theorem parseChunkHeader_put (h : ChunkHeader) (hr : h.InRange) (rest : List UInt8) :
    parseChunkHeader (putChunkHeader h ++ rest) = h := by
  obtain ⟨streamId, chunkIndex, payloadSize, dstOffset, padding⟩ := h
  simp only [parseChunkHeader, ChunkHeader.mk.injEq]
  refine ⟨?_, ?_, ?_, ?_, ?_⟩
  · exact readField_at [] _ _ 0 8 streamId (by simp [putChunkHeader]; rfl) rfl hr.streamId
  · exact readField_at (toBytes 8 streamId) _ _ 8 4 chunkIndex
      (by simp [putChunkHeader]; rfl) (length_toBytes _ _) hr.chunkIndex
  · exact readField_at (toBytes 8 streamId ++ toBytes 4 chunkIndex) _ _ 12 4 payloadSize
      (by simp [putChunkHeader]; rfl) (by simp [length_toBytes]) hr.payloadSize
  · exact readField_at (toBytes 8 streamId ++ toBytes 4 chunkIndex ++ toBytes 4 payloadSize)
      _ _ 16 4 dstOffset (by simp [putChunkHeader]; rfl) (by simp [length_toBytes]) hr.dstOffset
  · exact readField_at (toBytes 8 streamId ++ toBytes 4 chunkIndex ++ toBytes 4 payloadSize ++
      toBytes 4 dstOffset) rest _ 20 4 padding (by simp [putChunkHeader])
      (by simp [length_toBytes]) hr.padding

theorem chunkPayload_put (h : ChunkHeader) (hr : h.InRange) (payload : List UInt8)
    (hsize : h.payloadSize = payload.length) :
    chunkPayload (putChunkHeader h ++ payload) = payload := by
  rw [chunkPayload, parseChunkHeader_put h hr, hsize, ← length_putChunkHeader h,
    List.drop_left, List.take_length]

end ShmIpc.Stream
