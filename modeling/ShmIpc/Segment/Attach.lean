import ShmIpc.Segment.Layout

/-!
What the checks of `NewDirectGuest` buy. Every number in the exchange header is the
peer's choice, and the addresses of all slots are computed from these numbers. If the
header is accepted, no step of that computation wraps, every slot stays inside the
mapping, no two regions of it overlap, and the headers are aligned for atomic accesses.
-/

namespace ShmIpc.Segment

namespace DirectGuest

/-- The slice lies in `[lo, hi)`. -/
def Slice.Within (lo hi : Nat) (r : Slice) : Prop := lo ≤ r.ptr ∧ r.ptr + r.len ≤ hi

def Slice.Apart (r r' : Slice) : Prop := r.ptr + r.len ≤ r'.ptr ∨ r'.ptr + r'.len ≤ r.ptr

def SlotContext.regions (slot : SlotContext) : List Slice :=
  [⟨slot.header, slotHeaderBytes⟩, slot.reqBuffer, slot.respBuffer]

/-- The size computation is exact: every sum and product fits its type, and no
difference is negative. -/
structure NoWrap (header : ExchangeHeader) : Prop where
  perSlotSize : slotHeaderBytes + header.slotSize < 2 ^ 64
  totalSlots : header.numSlots + header.numGuestSlots < 2 ^ 32
  product : DirectGuest.perSlotSize header * DirectGuest.totalSlots header < 2 ^ 64
  totalSize : exchangeHeaderBytes +
    DirectGuest.perSlotSize header * DirectGuest.totalSlots header < 2 ^ 64
  maxReq : header.reqOffset ≤ header.respOffset
  maxResp : header.respOffset ≤ header.slotSize

/-- A guest attached to a segment that is mapped at `base`. -/
structure AttachSafe (header : ExchangeHeader) (base : Nat) (g : DirectGuest) : Prop where
  exact : NoWrap header
  count : g.slots.length = header.numSlots + header.numGuestSlots
  inside : ∀ slot ∈ g.slots, ∀ r ∈ slot.regions, r.Within base (base + g.shmSize)
  disjoint : (g.slots.flatMap SlotContext.regions).Pairwise Slice.Apart
  nonempty : ∀ slot ∈ g.slots, 0 < slot.reqBuffer.len ∧ 0 < slot.respBuffer.len
  aligned : ∀ slot ∈ g.slots, slot.header % 8 = 0

theorem Slice.Within.apart {lo mid hi : Nat} {r r' : Slice} (h : r.Within lo mid)
    (h' : r'.Within mid hi) : r.Apart r' :=
  Or.inl (Nat.le_trans h.2 h'.1)

theorem Slice.Within.mono {lo hi lo' hi' : Nat} {r : Slice} (h : r.Within lo hi)
    (hlo : lo' ≤ lo) (hhi : hi ≤ hi') : r.Within lo' hi' :=
  ⟨Nat.le_trans hlo h.1, Nat.le_trans h.2 hhi⟩

theorem exists_of_mem_openSlots {name : String} {header : ExchangeHeader} {n i ptr : Nat}
    {slot : SlotContext} (hslot : slot ∈ openSlots name header n i ptr) :
    ∃ k, k < n ∧ slot = openSlot name header (i + k) (ptr + perSlotSize header * k) := by
  induction n generalizing i ptr with
  | zero => cases hslot
  | succ n ih =>
    cases List.mem_cons.mp hslot with
    | inl heq => exact ⟨0, Nat.zero_lt_succ n, heq⟩
    | inr hrest =>
      obtain ⟨k, hk, heq⟩ := ih hrest
      refine ⟨k + 1, Nat.succ_lt_succ hk, ?_⟩
      rw [heq, Nat.add_assoc, Nat.add_comm 1 k, Nat.mul_succ, Nat.add_assoc,
        Nat.add_comm (perSlotSize header)]

section

variable {header : ExchangeHeader} (h : Accepted header)
include h

theorem Accepted.noWrap : NoWrap header := by
  have hslots := h.numSlots
  have hguest := h.numGuestSlots
  have hsize := h.slotSize
  have hordered := h.ordered
  have hheader : slotHeaderBytes = 128 := rfl
  have hper : perSlotSize header ≤ 2 ^ 30 + 128 := by
    unfold perSlotSize
    omega
  have htotal : totalSlots header ≤ 200000 := by
    unfold totalSlots
    omega
  have hproduct : perSlotSize header * totalSlots header ≤ (2 ^ 30 + 128) * 200000 :=
    Nat.mul_le_mul hper htotal
  have hexchange : exchangeHeaderBytes = 64 := rfl
  exact ⟨by omega, by omega, by omega, by omega, by omega, by omega⟩

theorem Accepted.perSlotSize_eq : perSlotSize header = slotHeaderBytes + header.slotSize :=
  Nat.mod_eq_of_lt h.noWrap.perSlotSize

theorem Accepted.totalSlots_eq :
    totalSlots header = header.numSlots + header.numGuestSlots :=
  Nat.mod_eq_of_lt h.noWrap.totalSlots

theorem Accepted.totalSize_eq :
    totalSize header = exchangeHeaderBytes + perSlotSize header * totalSlots header :=
  Nat.mod_eq_of_lt h.noWrap.totalSize

theorem Accepted.maxReq_eq : maxReq header = header.respOffset - header.reqOffset := by
  have hordered := h.ordered
  have hsize := h.slotSize
  unfold maxReq
  omega

theorem Accepted.maxResp_eq : maxResp header = header.slotSize - header.respOffset := by
  have hordered := h.ordered
  have hsize := h.slotSize
  unfold maxResp
  omega

theorem Accepted.within_openSlot (name : String) (i ptr : Nat) :
    ∀ r ∈ (openSlot name header i ptr).regions, r.Within ptr (ptr + perSlotSize header) := by
  have hordered := h.ordered
  have hper := h.perSlotSize_eq
  have hreq := h.maxReq_eq
  have hresp := h.maxResp_eq
  intro r hr
  simp only [SlotContext.regions, openSlot, List.mem_cons, List.not_mem_nil, or_false] at hr
  unfold Slice.Within
  rcases hr with rfl | rfl | rfl
  · constructor
    · exact Nat.le_refl ptr
    · simp only
      omega
  · simp only
    omega
  · simp only
    omega

theorem Accepted.apart_openSlot (name : String) (i ptr : Nat) :
    (openSlot name header i ptr).regions.Pairwise Slice.Apart := by
  have hordered := h.ordered
  have hreq := h.maxReq_eq
  simp only [SlotContext.regions, openSlot, List.pairwise_cons, List.mem_cons, List.not_mem_nil,
    or_false, Slice.Apart]
  refine ⟨?_, ?_, ?_, .nil⟩
  · rintro r (rfl | rfl)
    · simp only
      omega
    · simp only
      omega
  · rintro r rfl
    simp only
    omega
  · exact fun r hr => hr.elim

theorem Accepted.within_openSlots (name : String) (n i ptr : Nat) :
    ∀ slot ∈ openSlots name header n i ptr, ∀ r ∈ slot.regions,
      r.Within ptr (ptr + perSlotSize header * n) := by
  intro slot hslot r hr
  obtain ⟨k, hk, rfl⟩ := exists_of_mem_openSlots hslot
  have hend := Nat.mul_le_mul_left (perSlotSize header) hk
  rw [Nat.mul_succ] at hend
  exact (h.within_openSlot name (i + k) _ r hr).mono (by omega) (by omega)

theorem Accepted.apart_openSlots (name : String) (n i ptr : Nat) :
    ((openSlots name header n i ptr).flatMap SlotContext.regions).Pairwise Slice.Apart := by
  induction n generalizing i ptr with
  | zero => exact .nil
  | succ n ih =>
    rw [openSlots, List.flatMap_cons, List.pairwise_append]
    refine ⟨h.apart_openSlot name i ptr, ih (i + 1) (ptr + perSlotSize header), ?_⟩
    intro r hr r' hr'
    obtain ⟨slot, hslot, hmem⟩ := List.mem_flatMap.mp hr'
    exact (h.within_openSlot name i ptr r hr).apart
      (h.within_openSlots name n (i + 1) (ptr + perSlotSize header) slot hslot r' hmem)

theorem Accepted.aligned_openSlots (name : String) (n i ptr : Nat) (hptr : ptr % 8 = 0) :
    ∀ slot ∈ openSlots name header n i ptr, slot.header % 8 = 0 := by
  intro slot hslot
  obtain ⟨k, -, rfl⟩ := exists_of_mem_openSlots hslot
  have hper : perSlotSize header % 8 = 0 := by
    have hsize := h.slotSize_aligned
    have heq := h.perSlotSize_eq
    have hheader : slotHeaderBytes = 128 := rfl
    omega
  change (ptr + perSlotSize header * k) % 8 = 0
  rw [Nat.add_mod, Nat.mul_mod, hptr, hper, Nat.zero_mul]

theorem Accepted.nonempty_openSlots (name : String) (n i ptr : Nat) :
    ∀ slot ∈ openSlots name header n i ptr,
      0 < slot.reqBuffer.len ∧ 0 < slot.respBuffer.len := by
  have hordered := h.ordered
  have hreq := h.maxReq_eq
  have hresp := h.maxResp_eq
  intro slot hslot
  obtain ⟨k, -, rfl⟩ := exists_of_mem_openSlots hslot
  simp only [openSlot]
  omega

end

theorem length_openSlots (name : String) (header : ExchangeHeader) (n i ptr : Nat) :
    (openSlots name header n i ptr).length = n := by
  induction n generalizing i ptr with
  | zero => rfl
  | succ n ih => rw [openSlots, List.length_cons, ih]

end DirectGuest

/-- Whatever the header says: if `NewDirectGuest` accepts it, the attached guest is safe. -/
theorem newDirectGuest_safe (name : String) (header : ExchangeHeader) (base : Nat)
    (g : DirectGuest) (hbase : base % 8 = 0) (hattach : newDirectGuest name header base = .ok g) :
    DirectGuest.AttachSafe header base g := by
  obtain ⟨h, rfl⟩ := (newDirectGuest_eq_ok_iff name header base g).mp hattach
  have hexchange : exchangeHeaderBytes = 64 := rfl
  have hsize := h.totalSize_eq
  refine ⟨h.noWrap, ?_, ?_, h.apart_openSlots _ _ _ _, h.nonempty_openSlots _ _ _ _,
    h.aligned_openSlots _ _ _ _ (by omega)⟩
  · rw [← h.totalSlots_eq]
    exact DirectGuest.length_openSlots name header _ _ _
  · intro slot hslot r hr
    refine (h.within_openSlots _ _ _ _ slot hslot r hr).mono (Nat.le_add_right _ _) ?_
    show _ ≤ base + DirectGuest.totalSize header
    rw [hsize, Nat.add_assoc]

def largestHeader : ExchangeHeader where
  magic := DirectGuest.Magic
  version := DirectGuest.Version
  numSlots := 100000
  numGuestSlots := 100000
  slotSize := 2 ^ 30
  reqOffset := 0
  respOffset := 2 ^ 29
  fastPathAllowed := 1

theorem newDirectGuest_safe_largest :
    ∃ g, newDirectGuest "segment" largestHeader 4096 = .ok g ∧
      DirectGuest.AttachSafe largestHeader 4096 g := by
  have haccepted : DirectGuest.Accepted largestHeader :=
    ⟨rfl, rfl, by decide, by decide, by decide, by decide, by decide, by decide⟩
  have hattach := (newDirectGuest_eq_ok_iff "segment" largestHeader 4096 _).mpr ⟨haccepted, rfl⟩
  exact ⟨_, hattach, newDirectGuest_safe _ _ _ _ (by decide) hattach⟩

end ShmIpc.Segment
