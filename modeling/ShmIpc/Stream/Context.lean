import ShmIpc.Library.Assoc
import ShmIpc.Library.Placement

/-!
Reassembly state of one in-flight stream and the consumption of one chunk. The
C++ `StreamContext` and the Go `streamContext` carry these fields and run these
steps in the same order; what differs between them (clocks, retirement flags,
the parked-chunk bound) is added by the two reassemblers.

Counters have the widths of the source: 64-bit byte counts and a 32-bit chunk
cursor, with wrap-around written out where the source adds or subtracts.
-/

namespace ShmIpc.Stream
open Library

/-- A chunk already written to its destination but not yet accounted in order. -/
structure Placed where
  dstOffset : Nat
  size : Nat
  deriving DecidableEq, Repr

structure StreamContext where
  totalSize : Nat
  totalChunks : Nat
  appMsgType : Nat
  buf : List UInt8
  next : Nat
  offset : Nat
  ooo : Assoc Nat Placed
  oooBytes : Nat

/-- What the consumption of one chunk does to the stream it belongs to. -/
inductive ChunkOutcome
  | duplicate
  | accepted
  | corrupt
  | complete (data : List UInt8)
  deriving DecidableEq, Repr

namespace StreamContext

/-- A context as `STREAM_START` creates it, over a buffer with arbitrary bytes. -/
def fresh (totalSize totalChunks appMsgType : Nat) (buf : List UInt8) : StreamContext where
  totalSize := totalSize
  totalChunks := totalChunks
  appMsgType := appMsgType
  buf := buf
  next := 0
  offset := 0
  ooo := ∅
  oooBytes := 0

def fits (c : StreamContext) (n : Nat) : Bool :=
  (c.offset + c.oooBytes + n) % 2 ^ 64 ≤ c.totalSize

def inBounds (c : StreamContext) (dstOffset n : Nat) : Bool :=
  if dstOffset > c.totalSize then false
  else n ≤ c.totalSize - dstOffset

def write (c : StreamContext) (dstOffset : Nat) (data : List UInt8) : StreamContext :=
  if data.length > 0 then { c with buf := overwrite c.buf dstOffset data } else c

def accountInOrder (c : StreamContext) (n : Nat) : StreamContext :=
  { c with offset := (c.offset + n) % 2 ^ 64, next := (c.next + 1) % 2 ^ 32 }

/-- `none` means the caller must drop the stream. `allocFails` is the C++ map
insertion throwing, which its caller turns into the same drop. -/
def notePlaced (c : StreamContext) (index dstOffset n maxParked : Nat) (allocFails : Bool) :
    Option StreamContext :=
  if count c.ooo ≥ maxParked then none
  else if allocFails then none
  else some { c with
    ooo := c.ooo.insert index ⟨dstOffset, n % 2 ^ 32⟩
    oooBytes := (c.oooBytes + n) % 2 ^ 64 }

/-- The drain loop: one round per record the cursor has caught up to. Every
round erases a record, so the number of records bounds the rounds; the flag
reports a misplaced record. -/
def drain : Nat → StreamContext → StreamContext × Bool
  | 0, c => (c, false)
  | rounds + 1, c =>
    match c.ooo.lookup c.next with
    | none => (c, false)
    | some p =>
      let c := { c with
        ooo := c.ooo.erase c.next
        oooBytes := (c.oooBytes + 2 ^ 64 - p.size) % 2 ^ 64 }
      if p.dstOffset ≠ c.offset then (c, true)
      else drain rounds (c.accountInOrder p.size)

/-- Guards, the write to the final destination, and the accounting of a chunk
that is not a duplicate. The flag is the source's `corrupt`. -/
def place (c : StreamContext) (maxParked : Nat) (allocFails : Bool)
    (index dstOffset : Nat) (data : List UInt8) : StreamContext × Bool :=
  if !c.fits data.length || !c.inBounds dstOffset data.length then (c, true)
  else
    let c := c.write dstOffset data
    if index = c.next then
      if dstOffset ≠ c.offset then (c, true)
      else drain (count c.ooo) (c.accountInOrder data.length)
    else
      match c.notePlaced index dstOffset data.length maxParked allocFails with
      | none => (c, true)
      | some c => (c, false)

def isDuplicate (c : StreamContext) (index : Nat) : Bool :=
  index < c.next || (c.ooo.lookup index).isSome

/-- The context section of a chunk call, from the duplicate test to the
completion test. -/
def consume (c : StreamContext) (maxParked : Nat) (allocFails : Bool)
    (index dstOffset : Nat) (data : List UInt8) : StreamContext × ChunkOutcome :=
  if c.isDuplicate index then (c, .duplicate)
  else
    match c.place maxParked allocFails index dstOffset data with
    | (c, true) => (c, .corrupt)
    | (c, false) =>
      if c.next = c.totalChunks then
        if c.offset = c.totalSize then (c, .complete c.buf) else (c, .corrupt)
      else (c, .accepted)

end StreamContext

end ShmIpc.Stream
