import Mathlib.Algebra.Order.Ring.Int

/-!
The layout of the shared segment, computed twice. `DirectHost::Init` derives it from its
configuration and publishes five numbers in the `ExchangeHeader`; `NewDirectGuest` checks
these numbers and derives the layout from them again. Both lay the slots one behind the
other, each a `SlotHeader` followed by the slot's bytes, and both walk a pointer over the
mapping to do so. Each process has its own base address.

Configuration and header fields are 32 bits wide, sizes 64 bits, with the wrap-around of
each operation written out. Mapping the segment and opening the events are left to the
operating system and succeed here.
-/

namespace ShmIpc.Segment

structure ExchangeHeader where
  magic : Nat
  version : Nat
  numSlots : Nat
  numGuestSlots : Nat
  slotSize : Nat
  reqOffset : Nat
  respOffset : Nat
  fastPathAllowed : Nat
  deriving DecidableEq, Repr

def exchangeHeaderBytes : Nat := 64

def slotHeaderBytes : Nat := 128

/-- Where the two 64-bit fields of a `SlotHeader` are. -/
def leaseOffset : Nat := 96

def genOffset : Nat := 104

namespace DirectHost

def shmMagic : Nat := 0x584C4C21

def shmVersion : Nat := 0x00080000

structure HostConfig where
  shmName : String
  numHostSlots : Nat
  payloadSize : Nat := 1024 * 1024
  numGuestSlots : Nat := 0
  deriving DecidableEq, Repr

structure Slot where
  header : Nat
  reqBuffer : Nat
  respBuffer : Nat
  maxReqSize : Nat
  maxRespSize : Nat
  msgSeq : Nat
  reqName : String
  respName : String
  deriving DecidableEq, Repr

/-- Half of a slot, cut down to whole cache lines. -/
def halfSize (payloadSize : Nat) : Nat :=
  if payloadSize / 2 / 64 * 64 < 64 then 64 else payloadSize / 2 / 64 * 64

def reqOffset : Nat := 0

def respOffset (payloadSize : Nat) : Nat := halfSize payloadSize

/-- A slot grows if its two halves do not fit; otherwise it keeps the size asked for. -/
def slotSize (payloadSize : Nat) : Nat :=
  if (respOffset payloadSize + halfSize payloadSize) % 2 ^ 32 > payloadSize then
    (respOffset payloadSize + halfSize payloadSize) % 2 ^ 32
  else payloadSize

def perSlotTotal (payloadSize : Nat) : Nat := (slotHeaderBytes + slotSize payloadSize) % 2 ^ 64

def totalSlots (config : HostConfig) : Nat :=
  (config.numHostSlots + config.numGuestSlots) % 2 ^ 32

def totalSize (config : HostConfig) : Nat :=
  (exchangeHeaderBytes + perSlotTotal config.payloadSize * totalSlots config) % 2 ^ 64

/-- What `Init` publishes. The guest may take its fast path while auto-reclaim is off. -/
def exchangeHeader (config : HostConfig) (autoReclaim : Bool) : ExchangeHeader where
  magic := shmMagic
  version := shmVersion
  numSlots := config.numHostSlots
  numGuestSlots := config.numGuestSlots
  slotSize := slotSize config.payloadSize
  reqOffset := reqOffset
  respOffset := respOffset config.payloadSize
  fastPathAllowed := if autoReclaim then 0 else 1

/-- The slot at `ptr`, as `Init` sets it up. -/
def initSlot (config : HostConfig) (i ptr : Nat) : Slot where
  header := ptr
  reqBuffer := ptr + slotHeaderBytes + reqOffset
  respBuffer := ptr + slotHeaderBytes + respOffset config.payloadSize
  maxReqSize := halfSize config.payloadSize
  maxRespSize := slotSize config.payloadSize - respOffset config.payloadSize
  msgSeq := (i + 1) % 2 ^ 32
  reqName :=
    if i < config.numHostSlots then config.shmName ++ "_slot_" ++ toString i
    else config.shmName ++ "_guest_call"
  respName := config.shmName ++ "_slot_" ++ toString i ++ "_resp"

/-- The loop of `Init`: `n` more slots, from index `i` at `ptr`. -/
def initSlots (config : HostConfig) : (n i ptr : Nat) → List Slot
  | 0, _, _ => []
  | n + 1, i, ptr =>
    initSlot config i ptr :: initSlots config n (i + 1) (ptr + perSlotTotal config.payloadSize)

def slots (config : HostConfig) (shmBase : Nat) : List Slot :=
  initSlots config (totalSlots config) 0 (shmBase + exchangeHeaderBytes)

end DirectHost

namespace DirectGuest

def Magic : Nat := 0x584C4C21

def Version : Nat := 0x00080000

inductive AttachError
  | magic (got : Nat)
  | version (got : Nat)
  | numSlots (got : Nat)
  | numGuestSlots (got : Nat)
  | slotSize (got : Nat)
  | slotSizeUnaligned (got : Nat)
  | reqOffsetUnaligned (got : Nat)
  | reqOffsetBeyondSlot (reqOffset slotSize : Nat)
  | respOffsetBeforeReq (respOffset reqOffset : Nat)
  | respOffsetBeyondSlot (respOffset slotSize : Nat)
  deriving DecidableEq, Repr

def hex (n : Nat) : String := "0x" ++ String.ofList (Nat.toDigits 16 n)

def AttachError.text : AttachError → String
  | .magic got => "invalid magic number: " ++ hex got ++ " (expected " ++ hex Magic ++ ")"
  | .version got =>
    "protocol version mismatch: " ++ hex got ++ " (expected " ++ hex Version ++ ")"
  | .numSlots got => "invalid numSlots: " ++ toString got
  | .numGuestSlots got => "invalid numGuestSlots: " ++ toString got
  | .slotSize got => "invalid slotSize: " ++ toString got
  | .slotSizeUnaligned got =>
    "invalid slotSize: " ++ toString got ++ " (must be 8-byte aligned)"
  | .reqOffsetUnaligned got =>
    "invalid reqOffset: " ++ toString got ++ " (must be 8-byte aligned)"
  | .reqOffsetBeyondSlot req slot =>
    "shm: invalid ExchangeHeader: reqOffset (" ++ toString req ++ ") >= slotSize (" ++
      toString slot ++ ")"
  | .respOffsetBeforeReq resp req =>
    "shm: invalid ExchangeHeader: respOffset (" ++ toString resp ++ ") <= reqOffset (" ++
      toString req ++ ")"
  | .respOffsetBeyondSlot resp slot =>
    "shm: invalid ExchangeHeader: respOffset (" ++ toString resp ++ ") >= slotSize (" ++
      toString slot ++ ")"

/-- The first check of `NewDirectGuest` that fails. -/
def refusal (header : ExchangeHeader) : Option AttachError :=
  if header.magic ≠ Magic then some (.magic header.magic)
  else if header.version ≠ Version then some (.version header.version)
  else if header.numSlots = 0 ∨ header.numSlots > 100000 then some (.numSlots header.numSlots)
  else if header.numGuestSlots > 100000 then some (.numGuestSlots header.numGuestSlots)
  else if header.slotSize = 0 ∨ header.slotSize > 1024 * 1024 * 1024 then
    some (.slotSize header.slotSize)
  else if header.slotSize % 8 ≠ 0 then some (.slotSizeUnaligned header.slotSize)
  else if header.reqOffset % 8 ≠ 0 then some (.reqOffsetUnaligned header.reqOffset)
  else if header.reqOffset ≥ header.slotSize then
    some (.reqOffsetBeyondSlot header.reqOffset header.slotSize)
  else if header.respOffset ≤ header.reqOffset then
    some (.respOffsetBeforeReq header.respOffset header.reqOffset)
  else if header.respOffset ≥ header.slotSize then
    some (.respOffsetBeyondSlot header.respOffset header.slotSize)
  else none

structure Slice where
  ptr : Nat
  len : Nat
  deriving DecidableEq, Repr

structure SlotContext where
  header : Nat
  reqBuffer : Slice
  respBuffer : Slice
  nextMsgSeq : Nat
  reqName : String
  respName : String
  deriving DecidableEq, Repr

def perSlotSize (header : ExchangeHeader) : Nat := (slotHeaderBytes + header.slotSize) % 2 ^ 64

def totalSlots (header : ExchangeHeader) : Nat :=
  (header.numSlots + header.numGuestSlots) % 2 ^ 32

def totalSize (header : ExchangeHeader) : Nat :=
  (exchangeHeaderBytes + perSlotSize header * totalSlots header) % 2 ^ 64

def maxReq (header : ExchangeHeader) : Nat :=
  (header.respOffset + 2 ^ 32 - header.reqOffset) % 2 ^ 32

def maxResp (header : ExchangeHeader) : Nat :=
  (header.slotSize + 2 ^ 32 - header.respOffset) % 2 ^ 32

def openSlot (name : String) (header : ExchangeHeader) (i ptr : Nat) : SlotContext where
  header := ptr
  reqBuffer := ⟨ptr + slotHeaderBytes + header.reqOffset, maxReq header⟩
  respBuffer := ⟨ptr + slotHeaderBytes + header.respOffset, maxResp header⟩
  nextMsgSeq := (i + 1) % 2 ^ 32
  reqName :=
    if i < header.numSlots then name ++ "_slot_" ++ toString i else name ++ "_guest_call"
  respName := name ++ "_slot_" ++ toString i ++ "_resp"

/-- The loop of `NewDirectGuest`: `n` more slots, from index `i` at `ptr`. -/
def openSlots (name : String) (header : ExchangeHeader) : (n i ptr : Nat) → List SlotContext
  | 0, _, _ => []
  | n + 1, i, ptr =>
    openSlot name header i ptr ::
      openSlots name header n (i + 1) (ptr + perSlotSize header)

end DirectGuest

structure DirectGuest where
  name : String
  shmBase : Nat
  shmSize : Nat
  numSlots : Nat
  numGuestSlots : Nat
  slotSize : Nat
  reqOffset : Nat
  respOffset : Nat
  fastPathAllowed : Bool
  slots : List DirectGuest.SlotContext
  deriving DecidableEq, Repr

/-- The guest behind a header that passes the checks. -/
def DirectGuest.attached (name : String) (header : ExchangeHeader) (addr : Nat) :
    DirectGuest where
  name := name
  shmBase := addr
  shmSize := totalSize header
  numSlots := header.numSlots
  numGuestSlots := header.numGuestSlots
  slotSize := header.slotSize
  reqOffset := header.reqOffset
  respOffset := header.respOffset
  fastPathAllowed := header.fastPathAllowed == 1
  slots := openSlots name header (totalSlots header) 0 (addr + exchangeHeaderBytes)

open DirectGuest in
def newDirectGuest (name : String) (header : ExchangeHeader) (addr : Nat) :
    Except AttachError DirectGuest :=
  match refusal header with
  | some e => .error e
  | none => .ok (attached name header addr)

/-- What `NewDirectGuest` requires of a header. -/
structure DirectGuest.Accepted (header : ExchangeHeader) : Prop where
  magic : header.magic = Magic
  version : header.version = Version
  numSlots : 1 ≤ header.numSlots ∧ header.numSlots ≤ 100000
  numGuestSlots : header.numGuestSlots ≤ 100000
  slotSize : 1 ≤ header.slotSize ∧ header.slotSize ≤ 2 ^ 30
  slotSize_aligned : header.slotSize % 8 = 0
  reqOffset_aligned : header.reqOffset % 8 = 0
  ordered : header.reqOffset < header.respOffset ∧ header.respOffset < header.slotSize

theorem check_eq_none_iff {α : Type} {p : Prop} [Decidable p] {e : α} {rest : Option α} :
    (if p then some e else rest) = none ↔ ¬ p ∧ rest = none := by
  by_cases hp : p
  · simp [hp]
  · simp [hp]

theorem DirectGuest.refusal_eq_none_iff (header : ExchangeHeader) :
    refusal header = none ↔ Accepted header := by
  simp only [refusal, check_eq_none_iff]
  constructor
  · rintro ⟨hmagic, hversion, hslots, hguest, hsize, haligned, hreq, hfirst, hsecond, hlast, -⟩
    exact ⟨by omega, by omega, by omega, by omega, by omega, by omega, by omega, by omega⟩
  · rintro ⟨hmagic, hversion, hslots, hguest, hsize, haligned, hreq, hordered⟩
    exact ⟨by omega, by omega, by omega, by omega, by omega, by omega, by omega, by omega,
      by omega, by omega, trivial⟩

theorem newDirectGuest_eq_ok_iff (name : String) (header : ExchangeHeader) (addr : Nat)
    (g : DirectGuest) :
    newDirectGuest name header addr = .ok g ↔
      DirectGuest.Accepted header ∧ g = .attached name header addr := by
  rw [← DirectGuest.refusal_eq_none_iff]
  unfold newDirectGuest
  cases DirectGuest.refusal header with
  | none =>
    constructor
    · intro h
      cases h
      exact ⟨rfl, rfl⟩
    · rintro ⟨-, rfl⟩
      rfl
  | some e =>
    constructor
    · intro h
      cases h
    · rintro ⟨h, -⟩
      cases h

end ShmIpc.Segment
