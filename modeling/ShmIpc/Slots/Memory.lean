import ShmIpc.Protocol

/-!
One exchange slot: its header in shared memory, the request and response areas,
and the two fields which the side that sends on the slot keeps to itself (the
active-wait flag and the next sequence number). The capacity of an area is the
length of its buffer, which no write changes. The doorbell words of the header
only decide when a waiter sleeps; a waiter looks at the state again after it
wakes, so a wait is modelled by its state loads and the doorbells are left out.
-/

namespace ShmIpc.Slots

/-- The period of the claim generation, a 64-bit counter. -/
def genPeriod : Nat := 2 ^ 64

def seqPeriod : Nat := 2 ^ 32

structure Slot where
  state : SlotState
  gen : Nat
  lease : Nat
  msgSeq : Nat
  reqSize : Int
  respSize : Int
  msgType : MsgType
  reqBuffer : List UInt8
  respBuffer : List UInt8
  activeWait : Bool
  nextSeq : Nat
  deriving DecidableEq

/-- The bump that precedes a claim: an atomic addition, which wraps. -/
def Slot.bumpGen (s : Slot) : Slot :=
  { s with gen := (s.gen + 1) % genPeriod }

theorem bumpGen_gen {s : Slot} {base bumps : Nat} (h : s.gen = (base + bumps) % genPeriod) :
    s.bumpGen.gen = (base + (bumps + 1)) % genPeriod := by
  show (s.gen + 1) % genPeriod = _
  rw [h, Nat.mod_add_mod, Nat.add_assoc]

/-- What the two sides fixed at start-up and do not change afterwards. -/
structure Layout where
  fastPathAllowed : Bool
  msgSeqStride : Nat

/-- The bytes which a size field denotes in a buffer. A negative size counts
from the end of the buffer. -/
def sized (buffer : List UInt8) (size : Int) : List UInt8 :=
  if 0 ≤ size then buffer.take size.natAbs
  else (buffer.drop (buffer.length - size.natAbs)).take size.natAbs

/-- A request as its sender publishes it. -/
structure Request where
  msgType : MsgType
  size : Int
  data : List UInt8
  deriving DecidableEq

/-- The response a host call copies out: a size beyond the area is cut down to it. -/
def copyOut (respBuffer : List UInt8) (respSize : Int) : List UInt8 :=
  let absResp := min respSize.natAbs respBuffer.length
  sized respBuffer (if 0 ≤ respSize then absResp else -absResp)

theorem copyOut_eq_sized (respBuffer : List UInt8) (respSize : Int)
    (h : respSize.natAbs ≤ respBuffer.length) : copyOut respBuffer respSize =
      sized respBuffer respSize := by
  unfold copyOut
  simp only [Nat.min_eq_left h]
  split
  · rw [show (respSize.natAbs : Int) = respSize by omega]
  · rw [show -(respSize.natAbs : Int) = respSize by omega]

theorem length_sized {buffer : List UInt8} {size : Int} (h : size.natAbs ≤ buffer.length) :
    (sized buffer size).length = size.natAbs := by
  unfold sized
  split
  · rw [List.length_take, Nat.min_eq_left h]
  · rw [List.length_take, List.length_drop]
    omega

/-- Negation of a 32-bit integer: the least one is its own negation. -/
def negInt32 (n : Int) : Int :=
  if n = -2 ^ 31 then n else -n

end ShmIpc.Slots
