import ShmIpc.Stream.Context

/-!
What a context knows about the chunks it has taken in. `Tracks initial W c`
relates a context to the list of its first arrivals, in arrival order, and to
the bytes its buffer held when it was created. A write may land on top of an
earlier one, so the buffer is only ever described as the result of all writes
in arrival order; that it is the concatenation of the payloads follows when the
last cursor test has passed, not before.
-/

namespace ShmIpc.Stream
open Library

/-- The first chunk taken in for an index. -/
structure Arrival where
  index : Nat
  dstOffset : Nat
  payload : List UInt8
  deriving DecidableEq, Repr

def Arrival.write (a : Arrival) : Nat × List UInt8 := (a.dstOffset, a.payload)

def indices (W : List Arrival) : List Nat := W.map Arrival.index

def payloadAt (W : List Arrival) (i : Nat) : List UInt8 :=
  ((W.find? fun a => a.index = i).map Arrival.payload).getD []

theorem mem_indices {W : List Arrival} {i : Nat} :
    i ∈ indices W ↔ ∃ a ∈ W, a.index = i := by
  simp [indices]

theorem payloadAt_of_mem {W : List Arrival} (hd : (indices W).Nodup) {a : Arrival}
    (ha : a ∈ W) : payloadAt W a.index = a.payload := by
  induction W with
  | nil => simp at ha
  | cons b W ih =>
    simp only [indices, List.map_cons, List.nodup_cons] at hd
    by_cases hb : b.index = a.index
    · have hba : b = a := by
        rcases List.mem_cons.mp ha with h | h
        · exact h.symm
        · exact absurd (hb ▸ List.mem_map_of_mem h) hd.1
      simp [payloadAt, hba]
    · have haW : a ∈ W := by
        rcases List.mem_cons.mp ha with h | h
        · exact absurd (by rw [h]) hb
        · exact h
      simpa [payloadAt, hb] using ih hd.2 haW

theorem payloadAt_append_ne (W : List Arrival) (a : Arrival) (i : Nat) (h : i ≠ a.index) :
    payloadAt (W ++ [a]) i = payloadAt W i := by
  have ha : ¬ a.index = i := fun hi => h hi.symm
  simp [payloadAt, List.find?_append, ha]

theorem nodup_append_one {W : List Arrival} {a : Arrival} (hd : (indices W).Nodup)
    (ha : a.index ∉ indices W) : (indices (W ++ [a])).Nodup := by
  simp only [indices, List.map_append, List.map_cons, List.map_nil] at *
  rw [List.nodup_append]
  refine ⟨hd, by simp, ?_⟩
  intro i hi j hj
  rw [List.mem_singleton] at hj
  subst hj
  rintro rfl
  exact ha hi

theorem startOf_append (W : List Arrival) (a : Arrival) (n : Nat) (h : n ≤ a.index) :
    startOf (payloadAt (W ++ [a])) n = startOf (payloadAt W) n :=
  startOf_congr _ _ n fun i hi => payloadAt_append_ne W a i (by omega)

def received (W : List Arrival) : Nat :=
  (W.map fun a => a.payload.length).sum

theorem received_append (W : List Arrival) (a : Arrival) :
    received (W ++ [a]) = received W + a.payload.length := by
  simp [received]

structure Tracks (initial : List UInt8) (W : List Arrival) (c : StreamContext) : Prop where
  initial_length : initial.length = c.totalSize
  totalSize_le : c.totalSize ≤ 2 ^ 30
  totalChunks_lt : c.totalChunks < 2 ^ 32
  distinct : (indices W).Nodup
  next_le : c.next ≤ c.totalChunks
  below : ∀ a ∈ W, a.index < c.totalChunks
  seen : ∀ i, i < c.next → i ∈ indices W
  parked : ∀ i q, c.ooo.lookup i = some q ↔
    c.next ≤ i ∧ ∃ a ∈ W, a.index = i ∧ q = ⟨a.dstOffset, a.payload.length⟩
  settled : ∀ a ∈ W, a.index < c.next → a.dstOffset = startOf (payloadAt W) a.index
  offset_eq : c.offset = startOf (payloadAt W) c.next
  oooBytes_eq : c.oooBytes = weight Placed.size c.ooo
  received_eq : c.offset + c.oooBytes = received W
  received_le : received W ≤ c.totalSize
  inside : ∀ a ∈ W, a.dstOffset + a.payload.length ≤ c.totalSize
  buf_eq : c.buf = applyWrites initial (W.map Arrival.write)

/-- No record waits at the cursor: what the drain loop establishes. -/
def Steady (c : StreamContext) : Prop := c.ooo.lookup c.next = none

theorem tracks_fresh (totalSize totalChunks appMsgType : Nat) (buf : List UInt8)
    (hbuf : buf.length = totalSize) (hsize : totalSize ≤ 2 ^ 30)
    (hchunks : totalChunks < 2 ^ 32) :
    Tracks buf [] (.fresh totalSize totalChunks appMsgType buf) where
  initial_length := hbuf
  totalSize_le := hsize
  totalChunks_lt := hchunks
  distinct := by simp [indices]
  next_le := Nat.zero_le _
  below := by simp
  seen := by simp [StreamContext.fresh]
  parked := by simp [StreamContext.fresh]
  settled := by simp
  offset_eq := by simp [StreamContext.fresh, startOf]
  oooBytes_eq := rfl
  received_eq := rfl
  received_le := Nat.zero_le _
  inside := by simp
  buf_eq := rfl

namespace Tracks

variable {initial : List UInt8} {W : List Arrival} {c : StreamContext}

theorem isDuplicate_iff (h : Tracks initial W c) (i : Nat) :
    c.isDuplicate i = true ↔ i ∈ indices W := by
  simp only [StreamContext.isDuplicate, Bool.or_eq_true, decide_eq_true_eq]
  constructor
  · rintro (hlt | hsome)
    · exact h.seen i hlt
    · obtain ⟨q, hq⟩ := Option.isSome_iff_exists.mp hsome
      obtain ⟨_, a, ha, rfl, _⟩ := (h.parked i q).mp hq
      exact mem_indices.mpr ⟨a, ha, rfl⟩
  · intro hi
    obtain ⟨a, ha, rfl⟩ := mem_indices.mp hi
    by_cases hlt : a.index < c.next
    · exact Or.inl hlt
    · right
      rw [(h.parked a.index _).mpr ⟨by omega, a, ha, rfl, rfl⟩]
      rfl

theorem fits_iff (h : Tracks initial W c) (n : Nat) (hn : n < 2 ^ 32) :
    c.fits n = true ↔ received W + n ≤ c.totalSize := by
  have hr := h.received_eq
  have hle := h.received_le
  have hsize := h.totalSize_le
  rw [StreamContext.fits, hr, Nat.mod_eq_of_lt (by omega), decide_eq_true_eq]

theorem inBounds_iff (c : StreamContext) (dst n : Nat) :
    c.inBounds dst n = true ↔ dst + n ≤ c.totalSize := by
  simp only [StreamContext.inBounds]
  split
  · simp only [Bool.false_eq_true, false_iff]; omega
  · rw [decide_eq_true_eq]; omega

end Tracks

theorem write_eq (c : StreamContext) (dst : Nat) (data : List UInt8) :
    c.write dst data = { c with buf := overwrite c.buf dst data } := by
  cases data with
  | nil => simp [StreamContext.write, overwrite_nil]
  | cons b data => simp [StreamContext.write]

namespace Tracks

variable {initial : List UInt8} {W : List Arrival} {c : StreamContext}

theorem buf_append (h : Tracks initial W c) (a : Arrival) :
    overwrite c.buf a.dstOffset a.payload =
      applyWrites initial ((W ++ [a]).map Arrival.write) := by
  rw [List.map_append, List.map_singleton, applyWrites_append_one, ← h.buf_eq]
  rfl

theorem settled_append (h : Tracks initial W c) (a : Arrival) (ha : c.next ≤ a.index) :
    ∀ b ∈ W, b.index < c.next →
      b.dstOffset = startOf (payloadAt (W ++ [a])) b.index := by
  intro b hb hlt
  rw [startOf_append W a b.index (by omega)]
  exact h.settled b hb hlt

theorem park (h : Tracks initial W c) (a : Arrival) (hnew : a.index ∉ indices W)
    (hahead : c.next < a.index) (hbelow : a.index < c.totalChunks)
    (hsize : a.payload.length < 2 ^ 32)
    (hfits : received W + a.payload.length ≤ c.totalSize)
    (hin : a.dstOffset + a.payload.length ≤ c.totalSize) :
    Tracks initial (W ++ [a]) { c with
      buf := overwrite c.buf a.dstOffset a.payload
      ooo := c.ooo.insert a.index ⟨a.dstOffset, a.payload.length % 2 ^ 32⟩
      oooBytes := (c.oooBytes + a.payload.length) % 2 ^ 64 } := by
  have hr := h.received_eq
  have htotal := h.totalSize_le
  have hwidth : a.payload.length % 2 ^ 32 = a.payload.length := Nat.mod_eq_of_lt hsize
  have hbytes : (c.oooBytes + a.payload.length) % 2 ^ 64 = c.oooBytes + a.payload.length :=
    Nat.mod_eq_of_lt (by omega)
  have habsent : a.index ∉ c.ooo := by
    rw [← AList.lookup_eq_none, Option.eq_none_iff_forall_ne_some]
    intro q hq
    obtain ⟨_, b, hb, hi, _⟩ := (h.parked a.index q).mp hq
    exact hnew (mem_indices.mpr ⟨b, hb, hi⟩)
  rw [hwidth, hbytes]
  refine
    { initial_length := h.initial_length
      totalSize_le := htotal
      totalChunks_lt := h.totalChunks_lt
      distinct := nodup_append_one h.distinct hnew
      next_le := h.next_le
      below := ?_
      seen := ?_
      parked := ?_
      settled := ?_
      offset_eq := ?_
      oooBytes_eq := ?_
      received_eq := ?_
      received_le := ?_
      inside := ?_
      buf_eq := h.buf_append a }
  · simpa [or_imp, forall_and] using ⟨h.below, hbelow⟩
  · intro i hi
    simpa [indices] using Or.inl (mem_indices.mp (h.seen i hi))
  · intro i q
    simp only [lookup_insert_eq]
    split
    · next hi =>
        subst hi
        constructor
        · intro hq
          exact ⟨by omega, a, by simp, rfl, (Option.some.inj hq).symm⟩
        · rintro ⟨_, b, hb, hbi, rfl⟩
          rcases List.mem_append.mp hb with hbW | hba
          · exact absurd (mem_indices.mpr ⟨b, hbW, hbi⟩) hnew
          · rw [List.mem_singleton.mp hba]
    · next hi =>
        rw [h.parked i q]
        constructor
        · rintro ⟨hle, b, hb, hbi, hq⟩
          exact ⟨hle, b, by simp [hb], hbi, hq⟩
        · rintro ⟨hle, b, hb, hbi, hq⟩
          rcases List.mem_append.mp hb with hbW | hba
          · exact ⟨hle, b, hbW, hbi, hq⟩
          · exact absurd (by rw [← hbi, List.mem_singleton.mp hba]) hi
  · intro b hb hlt
    rcases List.mem_append.mp hb with hbW | hba
    · exact h.settled_append a (by omega) b hbW hlt
    · rw [List.mem_singleton.mp hba] at hlt
      exact absurd hlt (by simp only; omega)
  · exact h.offset_eq.trans (startOf_append W a c.next (by omega)).symm
  · rw [weight_insert _ _ _ _ habsent, ← h.oooBytes_eq]
    exact Nat.add_comm _ _
  · rw [received_append]
    simp only
    omega
  · rw [received_append]
    exact hfits
  · simpa [or_imp, forall_and] using ⟨h.inside, hin⟩

/-- The chunk at the cursor is written and accounted. Records still waiting at
the new cursor are left to the drain loop. -/
theorem inOrder (h : Tracks initial W c) (a : Arrival) (steady : Steady c)
    (hindex : a.index = c.next) (hdst : a.dstOffset = c.offset)
    (hbelow : a.index < c.totalChunks)
    (hfits : received W + a.payload.length ≤ c.totalSize)
    (hin : a.dstOffset + a.payload.length ≤ c.totalSize) :
    Tracks initial (W ++ [a]) { c with
      buf := overwrite c.buf a.dstOffset a.payload
      offset := (c.offset + a.payload.length) % 2 ^ 64
      next := (c.next + 1) % 2 ^ 32 } := by
  have hr := h.received_eq
  have htotal := h.totalSize_le
  have hchunks := h.totalChunks_lt
  have hoff : (c.offset + a.payload.length) % 2 ^ 64 = c.offset + a.payload.length :=
    Nat.mod_eq_of_lt (by omega)
  have hnext : (c.next + 1) % 2 ^ 32 = c.next + 1 := Nat.mod_eq_of_lt (by omega)
  have hnew : a.index ∉ indices W := by
    intro hmem
    obtain ⟨b, hb, hbi⟩ := mem_indices.mp hmem
    have hlook := (h.parked c.next _).mpr ⟨Nat.le_refl _, b, hb, by omega, rfl⟩
    rw [steady] at hlook
    cases hlook
  have hdistinct := nodup_append_one h.distinct hnew
  have hself : payloadAt (W ++ [a]) c.next = a.payload := by
    rw [← hindex]
    exact payloadAt_of_mem hdistinct (by simp)
  rw [hoff, hnext]
  refine
    { initial_length := h.initial_length
      totalSize_le := htotal
      totalChunks_lt := hchunks
      distinct := hdistinct
      next_le := by simp only; omega
      below := ?_
      seen := ?_
      parked := ?_
      settled := ?_
      offset_eq := ?_
      oooBytes_eq := h.oooBytes_eq
      received_eq := ?_
      received_le := ?_
      inside := ?_
      buf_eq := h.buf_append a }
  · simpa [or_imp, forall_and] using ⟨h.below, hbelow⟩
  · intro i hi
    simp only at hi
    rw [indices, List.map_append, List.mem_append]
    by_cases hlt : i < c.next
    · exact Or.inl (h.seen i hlt)
    · right
      simp only [List.map_cons, List.map_nil, List.mem_singleton]
      omega
  · intro i q
    rw [h.parked i q]
    constructor
    · rintro ⟨hle, b, hb, hbi, hq⟩
      have hne : i ≠ c.next := by
        rintro rfl
        exact hnew (mem_indices.mpr ⟨b, hb, by omega⟩)
      exact ⟨by simp only; omega, b, by simp [hb], hbi, hq⟩
    · rintro ⟨hle, b, hb, hbi, hq⟩
      simp only at hle
      rcases List.mem_append.mp hb with hbW | hba
      · exact ⟨by omega, b, hbW, hbi, hq⟩
      · rw [List.mem_singleton.mp hba] at hbi
        omega
  · intro b hb hlt
    rcases List.mem_append.mp hb with hbW | hba
    · have hne : b.index ≠ a.index := fun he => hnew (mem_indices.mpr ⟨b, hbW, he⟩)
      simp only at hlt
      exact h.settled_append a (by omega) b hbW (by omega)
    · rw [List.mem_singleton.mp hba, hdst, h.offset_eq, hindex,
        startOf_append W a c.next (by omega)]
  · rw [startOf_succ, hself, startOf_append W a c.next (by omega), ← h.offset_eq]
  · rw [received_append]
    simp only
    omega
  · rw [received_append]
    exact hfits
  · simpa [or_imp, forall_and] using ⟨h.inside, hin⟩

/-- One round of the drain loop on a record that sits at its own offset. The
bytes move from placed to assembled, so the received total does not change. -/
theorem drainRound (h : Tracks initial W c) (p : Placed)
    (hp : c.ooo.lookup c.next = some p) (hdst : p.dstOffset = c.offset) :
    Tracks initial W { c with
      ooo := c.ooo.erase c.next
      oooBytes := (c.oooBytes + 2 ^ 64 - p.size) % 2 ^ 64
      offset := (c.offset + p.size) % 2 ^ 64
      next := (c.next + 1) % 2 ^ 32 } := by
  obtain ⟨-, a, ha, hindex, rfl⟩ := (h.parked c.next p).mp hp
  have hr := h.received_eq
  have hle := h.received_le
  have htotal := h.totalSize_le
  have hchunks := h.totalChunks_lt
  have hbelow := h.below a ha
  have hweight := weight_erase Placed.size c.ooo c.next _ hp
  rw [← h.oooBytes_eq] at hweight
  have hbytes : (c.oooBytes + 2 ^ 64 - a.payload.length) % 2 ^ 64 =
      weight Placed.size (c.ooo.erase c.next) := by
    simp only at hweight
    omega
  have hoff : (c.offset + a.payload.length) % 2 ^ 64 = c.offset + a.payload.length :=
    Nat.mod_eq_of_lt (by simp only at hweight; omega)
  have hnext : (c.next + 1) % 2 ^ 32 = c.next + 1 := Nat.mod_eq_of_lt (by omega)
  have hself : payloadAt W c.next = a.payload := by
    rw [← hindex]
    exact payloadAt_of_mem h.distinct ha
  simp only [hbytes, hoff, hnext] at *
  refine
    { initial_length := h.initial_length
      totalSize_le := htotal
      totalChunks_lt := hchunks
      distinct := h.distinct
      next_le := by simp only; omega
      below := h.below
      seen := ?_
      parked := ?_
      settled := ?_
      offset_eq := ?_
      oooBytes_eq := rfl
      received_eq := by simp only; omega
      received_le := hle
      inside := h.inside
      buf_eq := h.buf_eq }
  · intro i hi
    simp only at hi
    by_cases hlt : i < c.next
    · exact h.seen i hlt
    · exact mem_indices.mpr ⟨a, ha, by omega⟩
  · intro i q
    simp only [lookup_erase_eq]
    split
    · next hi =>
        simp only [reduceCtorEq, false_iff, not_and]
        omega
    · next hi =>
        rw [h.parked i q]
        constructor
        · rintro ⟨hle', hex⟩
          exact ⟨by omega, hex⟩
        · rintro ⟨hle', hex⟩
          exact ⟨by omega, hex⟩
  · intro b hb hlt
    simp only at hlt
    by_cases hcase : b.index < c.next
    · exact h.settled b hb hcase
    · have hba : b.index = a.index := by omega
      have hlook := (h.parked c.next ⟨b.dstOffset, b.payload.length⟩).mpr
        ⟨Nat.le_refl _, b, hb, by omega, rfl⟩
      rw [hp] at hlook
      have hd : a.dstOffset = b.dstOffset := by
        simpa using congrArg (Option.map Placed.dstOffset) hlook
      rw [← hd, hdst, h.offset_eq, hba, hindex]
  · rw [startOf_succ, hself, ← h.offset_eq]

end Tracks

/-- What the drain loop leaves alone. -/
structure SameStream (c d : StreamContext) : Prop where
  totalSize : d.totalSize = c.totalSize
  totalChunks : d.totalChunks = c.totalChunks
  appMsgType : d.appMsgType = c.appMsgType

theorem sameStream_drain (rounds : Nat) (c : StreamContext) :
    SameStream c (c.drain rounds).1 ∧ (c.drain rounds).1.buf = c.buf := by
  induction rounds generalizing c with
  | zero => exact ⟨⟨rfl, rfl, rfl⟩, rfl⟩
  | succ rounds ih =>
    simp only [StreamContext.drain]
    split
    · exact ⟨⟨rfl, rfl, rfl⟩, rfl⟩
    · split
      · exact ⟨⟨rfl, rfl, rfl⟩, rfl⟩
      · next p hp hdst =>
          obtain ⟨hsame, hbuf⟩ := ih (StreamContext.accountInOrder
            { c with
              ooo := c.ooo.erase c.next
              oooBytes := (c.oooBytes + 2 ^ 64 - p.size) % 2 ^ 64 } p.size)
          exact ⟨⟨hsame.totalSize, hsame.totalChunks, hsame.appMsgType⟩, hbuf⟩

/-- The drain loop ends with no record at the cursor, unless it met one that is
not where the cursor says it should be. -/
theorem tracks_drain (initial : List UInt8) (W : List Arrival) (rounds : Nat)
    (c : StreamContext) (h : Tracks initial W c) (hrounds : count c.ooo ≤ rounds)
    (hok : (c.drain rounds).2 = false) :
    Tracks initial W (c.drain rounds).1 ∧ Steady (c.drain rounds).1 := by
  induction rounds generalizing c with
  | zero =>
    refine ⟨h, ?_⟩
    have hnil : c.ooo.entries = [] := List.length_eq_zero_iff.mp (Nat.le_zero.mp hrounds)
    simp only [StreamContext.drain, Steady, AList.lookup, hnil, List.dlookup_nil]
  | succ rounds ih =>
    simp only [StreamContext.drain] at hok ⊢
    split at hok
    · next hp => exact ⟨h, hp⟩
    · next p hp =>
        split at hok
        · cases hok
        · next hdst =>
            rw [if_neg hdst]
            have hcount := count_erase c.ooo c.next p hp
            exact ih _ (h.drainRound p hp (not_not.mp hdst))
              (by simp only [StreamContext.accountInOrder]; omega) hok

/-- Every first arrival sits where the family `p` puts it. -/
def Conforms (p : Nat → List UInt8) (W : List Arrival) : Prop :=
  ∀ a ∈ W, a.payload = p a.index ∧ a.dstOffset = startOf p a.index

theorem Conforms.payloadAt_eq {p : Nat → List UInt8} {W : List Arrival} (h : Conforms p W)
    (hd : (indices W).Nodup) (i : Nat) (hi : i ∈ indices W) : payloadAt W i = p i := by
  obtain ⟨a, ha, rfl⟩ := mem_indices.mp hi
  rw [payloadAt_of_mem hd ha, (h a ha).1]

theorem Conforms.startOf_next {p : Nat → List UInt8} {initial : List UInt8}
    {W : List Arrival} {c : StreamContext} (h : Conforms p W) (ht : Tracks initial W c) :
    startOf (payloadAt W) c.next = startOf p c.next :=
  startOf_congr _ _ _ fun i hi => h.payloadAt_eq ht.distinct i (ht.seen i hi)

theorem drain_conforming (p : Nat → List UInt8) (initial : List UInt8) (W : List Arrival)
    (rounds : Nat) (c : StreamContext) (h : Tracks initial W c) (hp : Conforms p W) :
    (c.drain rounds).2 = false := by
  induction rounds generalizing c with
  | zero => rfl
  | succ rounds ih =>
    simp only [StreamContext.drain]
    split
    · rfl
    · next q hq =>
        obtain ⟨-, a, ha, hindex, rfl⟩ := (h.parked c.next q).mp hq
        have hdst : a.dstOffset = c.offset := by
          rw [(hp a ha).2, hindex, h.offset_eq, hp.startOf_next h]
        rw [if_neg (not_not.mpr hdst)]
        exact ih _ (h.drainRound _ hq hdst)

end ShmIpc.Stream
