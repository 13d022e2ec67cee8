import ShmIpc.Segment.Layout

/-!
When the two computations of the layout agree. The host rounds half a slot to whole cache
lines but takes the size of a slot as it is asked for, so the size it publishes is a
multiple of eight only if the payload size was one or was small enough to be replaced.
The guest refuses any other size, and on the host itself the headers from the second slot
on are then misaligned. Whenever the guest accepts the header, everything agrees.
-/

namespace ShmIpc.Segment
open DirectHost

section Sizes

variable (payloadSize : Nat)

theorem halfSize_spec : 64 ≤ halfSize payloadSize ∧ halfSize payloadSize % 64 = 0 ∧
    (128 ≤ payloadSize → 2 * halfSize payloadSize ≤ payloadSize) ∧
    (payloadSize < 128 → halfSize payloadSize = 64) := by
  unfold halfSize
  split
  · omega
  · omega

theorem slotSize_eq : slotSize payloadSize = if payloadSize < 128 then 128 else payloadSize := by
  obtain ⟨hge, -, hfits, hsmall⟩ := halfSize_spec payloadSize
  unfold slotSize respOffset
  by_cases hp : payloadSize < 128
  · rw [hsmall hp, if_pos hp, if_pos (by omega)]
    rfl
  · rw [if_neg hp]
    split
    · next hgrow =>
        have hle := hfits (by omega)
        have hmod := Nat.mod_le (halfSize payloadSize + halfSize payloadSize) (2 ^ 32)
        omega
    · rfl

end Sizes

/-- One slot as each side sees it, the host from `hostBase` on and the guest from
`guestBase` on. -/
structure SlotAgrees (hostBase guestBase : Nat) (h : Slot) (g : DirectGuest.SlotContext) :
    Prop where
  header : ∃ off, h.header = hostBase + off ∧ g.header = guestBase + off
  request : ∃ off, h.reqBuffer = hostBase + off ∧ g.reqBuffer.ptr = guestBase + off
  response : ∃ off, h.respBuffer = hostBase + off ∧ g.respBuffer.ptr = guestBase + off
  maxReq : g.reqBuffer.len = h.maxReqSize
  maxResp : g.respBuffer.len = h.maxRespSize
  msgSeq : g.nextMsgSeq = h.msgSeq
  reqName : g.reqName = h.reqName
  respName : g.respName = h.respName

/-- The 64-bit fields of a slot's header are where 64-bit accesses are allowed. -/
def SlotAligned (base : Nat) (h : Slot) : Prop :=
  ∃ off, h.header = base + off ∧ (off + leaseOffset) % 8 = 0 ∧ (off + genOffset) % 8 = 0

structure LayoutAgrees (config : HostConfig) : Prop where
  attach : ∀ autoReclaim hostBase guestBase, ∃ g,
    newDirectGuest config.shmName (exchangeHeader config autoReclaim) guestBase = .ok g ∧
      g.shmSize = totalSize config ∧
      List.Forall₂ (SlotAgrees hostBase guestBase) (slots config hostBase) g.slots
  aligned : ∀ base, ∀ h ∈ slots config base, SlotAligned base h

/-- The configurations the header can describe. -/
structure DirectHost.HostConfig.InRange (config : HostConfig) : Prop where
  hostSlots : 1 ≤ config.numHostSlots ∧ config.numHostSlots ≤ 100000
  guestSlots : config.numGuestSlots ≤ 100000
  payload : config.payloadSize ≤ 2 ^ 30

section Agreement

variable {config : HostConfig}

theorem slotSize_bounds (h : config.InRange) :
    0 < slotSize config.payloadSize ∧ slotSize config.payloadSize ≤ 2 ^ 30 ∧
      halfSize config.payloadSize < slotSize config.payloadSize := by
  have hpayload := h.payload
  obtain ⟨hge, -, hfits, hsmall⟩ := halfSize_spec config.payloadSize
  rw [slotSize_eq]
  split
  · omega
  · omega

theorem accepted_exchangeHeader (h : config.InRange) (autoReclaim : Bool) :
    DirectGuest.Accepted (exchangeHeader config autoReclaim) ↔
      slotSize config.payloadSize % 8 = 0 := by
  have hhalf : 0 < halfSize config.payloadSize :=
    Nat.lt_of_lt_of_le (by decide) (halfSize_spec config.payloadSize).1
  have hbounds := slotSize_bounds h
  constructor
  · exact fun haccepted => haccepted.slotSize_aligned
  · intro hsize
    exact ⟨rfl, rfl, h.hostSlots, h.guestSlots, ⟨hbounds.1, hbounds.2.1⟩, hsize, rfl,
      hhalf, hbounds.2.2⟩

theorem slotAgrees (h : config.InRange) (autoReclaim : Bool) (hostBase guestBase i off : Nat) :
    SlotAgrees hostBase guestBase (initSlot config i (hostBase + off))
      (DirectGuest.openSlot config.shmName (exchangeHeader config autoReclaim) i
        (guestBase + off)) := by
  have hbounds := slotSize_bounds h
  refine ⟨⟨off, rfl, rfl⟩, ⟨off + slotHeaderBytes + reqOffset, ?_, ?_⟩,
    ⟨off + slotHeaderBytes + respOffset config.payloadSize, ?_, ?_⟩, ?_, ?_, rfl, rfl, rfl⟩
  · simp only [initSlot, Nat.add_assoc]
  · simp only [DirectGuest.openSlot, exchangeHeader, Nat.add_assoc]
  · simp only [initSlot, Nat.add_assoc]
  · simp only [DirectGuest.openSlot, exchangeHeader, Nat.add_assoc]
  · simp only [DirectGuest.openSlot, DirectGuest.maxReq, exchangeHeader, initSlot, reqOffset,
      respOffset]
    omega
  · simp only [DirectGuest.openSlot, DirectGuest.maxResp, exchangeHeader, initSlot, respOffset]
    omega

theorem slots_agree (h : config.InRange) (autoReclaim : Bool) (hostBase guestBase n i off : Nat) :
    List.Forall₂ (SlotAgrees hostBase guestBase)
      (initSlots config n i (hostBase + off))
      (DirectGuest.openSlots config.shmName (exchangeHeader config autoReclaim) n i
        (guestBase + off)) := by
  induction n generalizing i off with
  | zero => exact .nil
  | succ n ih =>
    refine .cons (slotAgrees h autoReclaim hostBase guestBase i off) ?_
    have hrest := ih (i + 1) (off + perSlotTotal config.payloadSize)
    rw [← Nat.add_assoc, ← Nat.add_assoc] at hrest
    exact hrest

theorem slots_aligned (base n i off : Nat) (hoff : off % 8 = 0)
    (hsize : perSlotTotal config.payloadSize % 8 = 0) :
    ∀ h ∈ initSlots config n i (base + off), SlotAligned base h := by
  induction n generalizing i off with
  | zero => exact fun h hmem => absurd hmem List.not_mem_nil
  | succ n ih =>
    intro h hmem
    cases List.mem_cons.mp hmem with
    | inl heq =>
      refine ⟨off, by rw [heq]; rfl, ?_, ?_⟩
      · unfold leaseOffset
        omega
      · unfold genOffset
        omega
    | inr hrest =>
      rw [Nat.add_assoc] at hrest
      exact ih (i + 1) (off + perSlotTotal config.payloadSize) (by omega) h hrest

theorem layoutAgrees_of_aligned (h : config.InRange)
    (hsize : slotSize config.payloadSize % 8 = 0) : LayoutAgrees config where
  attach := by
    intro autoReclaim hostBase guestBase
    have haccepted := (accepted_exchangeHeader h autoReclaim).mpr hsize
    refine ⟨_, (newDirectGuest_eq_ok_iff _ _ _ _).mpr ⟨haccepted, rfl⟩, rfl, ?_⟩
    exact slots_agree h autoReclaim hostBase guestBase (totalSlots config) 0 exchangeHeaderBytes
  aligned := by
    intro base
    refine slots_aligned base (totalSlots config) 0 exchangeHeaderBytes rfl ?_
    unfold perSlotTotal slotHeaderBytes
    omega

/-- Host and guest agree on the layout exactly if the payload size is a multiple of eight,
or so small that the host replaces it. -/
theorem layoutAgrees_iff (config : HostConfig) (h : config.InRange) :
    LayoutAgrees config ↔ config.payloadSize < 128 ∨ config.payloadSize % 8 = 0 := by
  have hslot := slotSize_eq config.payloadSize
  constructor
  · intro hagrees
    obtain ⟨g, hattach, -⟩ := hagrees.attach false 0 0
    have haccepted := ((newDirectGuest_eq_ok_iff _ _ _ _).mp hattach).1
    have hsize := (accepted_exchangeHeader h false).mp haccepted
    rw [hslot] at hsize
    split at hsize
    · next hsmall => exact Or.inl hsmall
    · exact Or.inr hsize
  · intro hgood
    refine layoutAgrees_of_aligned h ?_
    rw [hslot]
    split
    · rfl
    · omega

def evenConfig : HostConfig := ⟨"segment", 1, 1000, 1⟩

theorem layoutAgrees_iff_even :
    evenConfig.InRange ∧ (LayoutAgrees evenConfig ↔
      evenConfig.payloadSize < 128 ∨ evenConfig.payloadSize % 8 = 0) := by
  have hrange : evenConfig.InRange := ⟨by decide, by decide, by decide⟩
  exact ⟨hrange, layoutAgrees_iff evenConfig hrange⟩

def oddConfig : HostConfig := ⟨"segment", 1, 1001, 1⟩

theorem oddConfig_disagrees : oddConfig.InRange ∧ ¬ LayoutAgrees oddConfig ∧
    newDirectGuest oddConfig.shmName (exchangeHeader oddConfig false) 0 =
      .error (.slotSizeUnaligned 1001) := by
  have hrefused : newDirectGuest oddConfig.shmName (exchangeHeader oddConfig false) 0 =
      .error (.slotSizeUnaligned 1001) := by decide
  refine ⟨⟨by decide, by decide, by decide⟩, ?_, hrefused⟩
  intro hagrees
  obtain ⟨g, hattach, -⟩ := hagrees.attach false 0 0
  rw [hrefused] at hattach
  cases hattach

end Agreement

end ShmIpc.Segment
