import ShmIpc.Library.Ring
import ShmIpc.Library.Transition

/-!
The byte ring over a slot's request buffer: a C++ `RingBufferSender` writes, a Go
`RingBufferReceiver` reads. The two offsets count bytes and never come back, each is stored
by one side only, and each side works with the other's offset as it last loaded it. The
steps are those of the source: one for each load, for each of the at most two copies, and
for the store that commits.

Byte counts are 64 bits wide and positions in the ring 32 bits, with the wrap-around of
each addition, subtraction and conversion written out.
-/

namespace ShmIpc.Ring
open Library

/-- Size of `RingBufferHeader`: two offsets, each padded to 128 bytes. -/
def ringBufferHeaderSize : Nat := 256

/-- The capacity both sides work with, once each has computed it. -/
structure RingConfig where
  capacity : Nat
  pos : 0 < capacity
  small : capacity < 2 ^ 32

namespace RingBufferSender

/-- The capacity `Init` settles on; a request buffer that leaves less than a kilobyte is
refused. -/
def init (maxReq : Nat) : Option Nat :=
  if maxReq < ringBufferHeaderSize + 1024 then none else some (maxReq - ringBufferHeaderSize)

def usage (w r : Nat) : Nat := (w + 2 ^ 64 - r) % 2 ^ 64

def available (capacity w r : Nat) : Nat :=
  (capacity + 2 ^ 32 - usage w r % 2 ^ 32) % 2 ^ 32

def toWrite (capacity w r remaining : Nat) : Nat :=
  if remaining < available capacity w r then remaining else available capacity w r

def writeIdx (capacity w : Nat) : Nat := w % capacity % 2 ^ 32

def contiguous (capacity w : Nat) : Nat := (capacity + 2 ^ 32 - writeIdx capacity w) % 2 ^ 32

def chunk (capacity w toWrite : Nat) : Nat :=
  if toWrite < contiguous capacity w then toWrite else contiguous capacity w

end RingBufferSender

namespace RingBufferReceiver

/-- The capacity `BootstrapRingBuffer` settles on for a request buffer at `addr`. -/
def bootstrap (addr len : Nat) : Option Nat :=
  if len ≤ ringBufferHeaderSize then none
  else if addr % 8 ≠ 0 then none
  else some ((len - ringBufferHeaderSize) % 2 ^ 32)

def available (w r : Nat) : Nat := (w + 2 ^ 64 - r) % 2 ^ 64

def toRead (w r outLen : Nat) : Nat :=
  if available w r < outLen then available w r else outLen

def readIdx (capacity r : Nat) : Nat := r % capacity % 2 ^ 32

def contiguous (capacity r : Nat) : Nat := (capacity + 2 ^ 32 - readIdx capacity r) % 2 ^ 32

def chunk (capacity r toRead : Nat) : Nat :=
  if toRead % 2 ^ 32 > contiguous capacity r then contiguous capacity r else toRead % 2 ^ 32

end RingBufferReceiver

/-- `src` is what is left of the data of the call. -/
inductive WriterPc
  | idle
  | loadWrite (src : List UInt8)
  | loadRead (src : List UInt8) (w : Nat)
  | copyFirst (src : List UInt8) (w toWrite : Nat)
  | copySecond (src : List UInt8) (w toWrite : Nat)
  | commit (src : List UInt8) (w toWrite : Nat)
  deriving DecidableEq

inductive ReaderPc
  | idle
  | loadWrite (out : List UInt8)
  | loadRead (out : List UInt8) (w : Nat)
  | copyFirst (out : List UInt8) (r toRead : Nat)
  | copySecond (out : List UInt8) (r toRead : Nat)
  | commit (out : List UInt8) (r toRead : Nat)
  deriving DecidableEq

/-- The ring and its two sides. `written` is everything passed to `Write` so far, and
`returned` everything `Read` has returned. -/
structure RingSystem where
  data : List UInt8
  writeOffset : Nat
  readOffset : Nat
  writer : WriterPc
  reader : ReaderPc
  written : List UInt8
  returned : List UInt8
  deriving DecidableEq

inductive RingAction
  | write (src : List UInt8)
  | writer
  | read (out : List UInt8)
  | reader
  deriving DecidableEq

namespace RingSystem

/-- A ring just initialised, over whatever bytes the buffer holds. -/
def start (cfg : RingConfig) (data : Vector UInt8 cfg.capacity) : RingSystem where
  data := data.toList
  writeOffset := 0
  readOffset := 0
  writer := .idle
  reader := .idle
  written := []
  returned := []

open RingBufferSender in
def writerStep (cfg : RingConfig) (s : RingSystem) : Option RingSystem :=
  match s.writer with
  | .idle => none
  | .loadWrite src =>
    some { s with writer := if 0 < src.length then .loadRead src s.writeOffset else .idle }
  | .loadRead src w =>
    if usage w s.readOffset ≥ cfg.capacity then some { s with writer := .loadWrite src }
    else some { s with
      writer := .copyFirst src w (toWrite cfg.capacity w s.readOffset src.length) }
  | .copyFirst src w toWrite =>
    some { s with
      data := overwrite s.data (writeIdx cfg.capacity w)
        (src.take (chunk cfg.capacity w toWrite))
      writer := if chunk cfg.capacity w toWrite < toWrite then .copySecond src w toWrite
        else .commit src w toWrite }
  | .copySecond src w toWrite =>
    some { s with
      data := overwrite s.data 0 ((src.drop (chunk cfg.capacity w toWrite)).take
        (toWrite - chunk cfg.capacity w toWrite))
      writer := .commit src w toWrite }
  | .commit src w toWrite =>
    some { s with
      writeOffset := (w + toWrite) % 2 ^ 64
      writer := .loadWrite (src.drop toWrite) }

open RingBufferReceiver in
def readerStep (cfg : RingConfig) (s : RingSystem) : Option RingSystem :=
  match s.reader with
  | .idle => none
  | .loadWrite out => some { s with reader := .loadRead out s.writeOffset }
  | .loadRead out w =>
    if available w s.readOffset = 0 then some { s with reader := .idle }
    else if available w s.readOffset > cfg.capacity then some { s with reader := .idle }
    else some { s with
      reader := .copyFirst out s.readOffset (toRead w s.readOffset out.length) }
  | .copyFirst out r toRead =>
    let out := copyAt out 0
      ((s.data.drop (readIdx cfg.capacity r)).take (chunk cfg.capacity r toRead))
    some { s with
      reader := if chunk cfg.capacity r toRead < toRead % 2 ^ 32 then .copySecond out r toRead
        else .commit out r toRead }
  | .copySecond out r toRead =>
    let out := copyAt out (chunk cfg.capacity r toRead)
      (s.data.take (toRead % 2 ^ 32 - chunk cfg.capacity r toRead))
    some { s with reader := .commit out r toRead }
  | .commit out r toRead =>
    some { s with
      readOffset := (r + toRead) % 2 ^ 64
      reader := .idle
      returned := s.returned ++ out.take toRead }

/-- A size is 32 bits wide, so is the length of what one call writes. -/
def step (cfg : RingConfig) (s : RingSystem) : RingAction → Option RingSystem
  | .write src =>
    if s.writer = .idle ∧ src.length < 2 ^ 32 then
      some { s with writer := .loadWrite src, written := s.written ++ src }
    else none
  | .writer => s.writerStep cfg
  | .read out => if s.reader = .idle then some { s with reader := .loadWrite out } else none
  | .reader => s.readerStep cfg

end RingSystem

theorem bootstrap_of_init (addr maxReq capacity : Nat) (haddr : addr % 8 = 0)
    (hsize : maxReq < 2 ^ 32) (h : RingBufferSender.init maxReq = some capacity) :
    RingBufferReceiver.bootstrap addr maxReq = some capacity ∧ 0 < capacity ∧
      capacity < 2 ^ 32 := by
  have hheader : ringBufferHeaderSize = 256 := rfl
  unfold RingBufferSender.init at h
  split at h
  · cases h
  · next hlarge =>
      have hcapacity := Option.some.inj h
      subst hcapacity
      refine ⟨?_, by omega, by omega⟩
      unfold RingBufferReceiver.bootstrap
      rw [if_neg (by omega), if_neg (by omega), Nat.mod_eq_of_lt (by omega)]

end ShmIpc.Ring
