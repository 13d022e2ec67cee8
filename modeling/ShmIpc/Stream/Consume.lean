import ShmIpc.Stream.Tracking

/-!
What one chunk does to a live context: the specification of `consume` in terms
of the first arrivals. A chunk that is not a duplicate either extends the
arrivals by itself, completes the stream, or leaves a context nobody looks at
again. The last theorems say when a context whose chunks come from one family
takes the next one in, and that no other family can complete.
-/

namespace ShmIpc.Stream
open Library

/-- A context between two calls: nothing waits at the cursor and at least one
index is missing. -/
structure Live (initial : List UInt8) (W : List Arrival) (c : StreamContext) : Prop where
  tracks : Tracks initial W c
  steady : Steady c
  unfinished : c.next < c.totalChunks

theorem live_fresh (totalSize totalChunks appMsgType : Nat) (buf : List UInt8)
    (hbuf : buf.length = totalSize) (hsize : totalSize ≤ 2 ^ 30)
    (hchunks : totalChunks < 2 ^ 32) (hpos : 0 < totalChunks) :
    Live buf [] (.fresh totalSize totalChunks appMsgType buf) :=
  ⟨tracks_fresh totalSize totalChunks appMsgType buf hbuf hsize hchunks, rfl, hpos⟩

section Place

variable {initial : List UInt8} {W : List Arrival} {c : StreamContext}

theorem sameStream_place (c : StreamContext) (maxParked : Nat) (allocFails : Bool)
    (a : Arrival) :
    SameStream c (c.place maxParked allocFails a.index a.dstOffset a.payload).1 := by
  simp only [StreamContext.place, write_eq]
  split
  · exact ⟨rfl, rfl, rfl⟩
  · split
    · split
      · exact ⟨rfl, rfl, rfl⟩
      · obtain ⟨hsame, -⟩ := sameStream_drain (count c.ooo) (StreamContext.accountInOrder
          { c with buf := overwrite c.buf a.dstOffset a.payload } a.payload.length)
        exact ⟨hsame.totalSize, hsame.totalChunks, hsame.appMsgType⟩
    · split
      · exact ⟨rfl, rfl, rfl⟩
      · next c' hc' =>
          simp only [StreamContext.notePlaced] at hc'
          split at hc'
          · cases hc'
          · split at hc'
            · cases hc'
            · cases hc'
              exact ⟨rfl, rfl, rfl⟩

theorem sameStream_consume (c : StreamContext) (maxParked : Nat) (allocFails : Bool)
    (a : Arrival) :
    SameStream c (c.consume maxParked allocFails a.index a.dstOffset a.payload).1 := by
  have hplace := sameStream_place c maxParked allocFails a
  simp only [StreamContext.consume]
  split
  · exact ⟨rfl, rfl, rfl⟩
  · split
    · next d hd => simpa only [hd] using hplace
    · next d hd =>
        rw [hd] at hplace
        split
        · split <;> exact hplace
        · exact hplace


theorem tracks_place (h : Live initial W c) (maxParked : Nat) (allocFails : Bool)
    (a : Arrival) (hnew : a.index ∉ indices W) (hbelow : a.index < c.totalChunks)
    (hsize : a.payload.length < 2 ^ 32) (d : StreamContext)
    (hplace : c.place maxParked allocFails a.index a.dstOffset a.payload = (d, false)) :
    Tracks initial (W ++ [a]) d ∧ Steady d := by
  have ht := h.tracks
  simp only [StreamContext.place, write_eq] at hplace
  split at hplace
  · cases hplace
  · next hguards =>
      simp only [Bool.or_eq_true, Bool.not_eq_true', not_or, Bool.not_eq_false] at hguards
      have hfits := (ht.fits_iff a.payload.length hsize).mp hguards.1
      have hin := (Tracks.inBounds_iff c a.dstOffset a.payload.length).mp hguards.2
      split at hplace
      · next hindex =>
          split at hplace
          · cases hplace
          · next hdst =>
              have hstep := ht.inOrder a h.steady hindex (not_not.mp hdst) hbelow hfits hin
              have hdrain := tracks_drain initial (W ++ [a]) (count c.ooo) _ hstep
                (Nat.le_refl _)
              simp only [StreamContext.accountInOrder] at hplace
              rw [hplace] at hdrain
              exact hdrain rfl
      · next hindex =>
          have hahead : c.next < a.index := by
            have hnot : ¬ a.index < c.next := fun hlt => hnew (ht.seen _ hlt)
            omega
          split at hplace
          · cases hplace
          · next d' hd' =>
              cases hplace
              simp only [StreamContext.notePlaced] at hd'
              split at hd'
              · cases hd'
              · split at hd'
                · cases hd'
                · cases hd'
                  refine ⟨ht.park a hnew hahead hbelow hsize hfits hin, ?_⟩
                  simp only [Steady, lookup_insert_eq]
                  rw [if_neg (by omega)]
                  exact h.steady

end Place

section Consume

variable {initial : List UInt8} {W : List Arrival} {c : StreamContext}

theorem consume_duplicate (h : Live initial W c) (maxParked : Nat) (allocFails : Bool)
    (index dst : Nat) (data : List UInt8) (hmem : index ∈ indices W) :
    c.consume maxParked allocFails index dst data = (c, .duplicate) := by
  rw [StreamContext.consume, if_pos ((h.tracks.isDuplicate_iff index).mpr hmem)]

theorem mem_of_consume_duplicate (h : Live initial W c) (maxParked : Nat)
    (allocFails : Bool) (index dst : Nat) (data : List UInt8) (d : StreamContext)
    (hd : c.consume maxParked allocFails index dst data = (d, .duplicate)) :
    d = c ∧ index ∈ indices W := by
  simp only [StreamContext.consume] at hd
  split at hd
  · next hdup =>
      cases hd
      exact ⟨rfl, (h.tracks.isDuplicate_iff index).mp hdup⟩
  · split at hd
    · cases hd
    · split at hd
      · split at hd <;> cases hd
      · cases hd

theorem tracks_consume (h : Live initial W c) (maxParked : Nat) (allocFails : Bool)
    (a : Arrival) (hbelow : a.index < c.totalChunks) (hsize : a.payload.length < 2 ^ 32)
    (d : StreamContext) (out : ChunkOutcome)
    (hd : c.consume maxParked allocFails a.index a.dstOffset a.payload = (d, out))
    (hdup : out ≠ .duplicate) (hcor : out ≠ .corrupt) :
    a.index ∉ indices W ∧ SameStream c d ∧ Tracks initial (W ++ [a]) d ∧ Steady d ∧
      ((out = .accepted ∧ d.next < d.totalChunks) ∨
        (out = .complete d.buf ∧ d.next = d.totalChunks ∧ d.offset = d.totalSize)) := by
  simp only [StreamContext.consume] at hd
  split at hd
  · cases hd
    exact absurd rfl hdup
  · next hnew =>
      rw [Bool.not_eq_true, ← Bool.not_eq_true, h.tracks.isDuplicate_iff] at hnew
      have hsame := sameStream_place c maxParked allocFails a
      split at hd
      · cases hd
        exact absurd rfl hcor
      · next e he =>
          rw [he] at hsame
          obtain ⟨htracks, hsteady⟩ :=
            tracks_place h maxParked allocFails a hnew hbelow hsize e he
          split at hd
          · next hnext =>
              split at hd
              · next hoff =>
                  cases hd
                  exact ⟨hnew, hsame, htracks, hsteady, Or.inr ⟨rfl, hnext, hoff⟩⟩
              · cases hd
                exact absurd rfl hcor
          · next hnext =>
              cases hd
              have hle := htracks.next_le
              exact ⟨hnew, hsame, htracks, hsteady, Or.inl ⟨rfl, by omega⟩⟩

end Consume

/-- Once the cursor has passed every index and every byte, the buffer is the
concatenation of the first arrivals, each of which was sent to its own place. -/
theorem complete_concat {initial : List UInt8} {W : List Arrival} {c : StreamContext}
    (h : Tracks initial W c) (hnext : c.next = c.totalChunks)
    (hoff : c.offset = c.totalSize) :
    c.buf = concat (payloadAt W) c.totalChunks ∧
      (∀ i, i < c.totalChunks → i ∈ indices W) ∧
      startOf (payloadAt W) c.totalChunks = c.totalSize ∧
      ∀ a ∈ W, a.dstOffset = startOf (payloadAt W) a.index := by
  have hseen : ∀ i, i < c.totalChunks → i ∈ indices W :=
    fun i hi => h.seen i (by omega)
  have hsum : startOf (payloadAt W) c.totalChunks = c.totalSize := by
    rw [← hnext, ← h.offset_eq, hoff]
  have hplace : ∀ a ∈ W, a.dstOffset = startOf (payloadAt W) a.index :=
    fun a ha => h.settled a ha (by rw [hnext]; exact h.below a ha)
  refine ⟨?_, hseen, hsum, hplace⟩
  rw [h.buf_eq]
  apply applyWrites_tiling
  · rw [h.initial_length, hsum]
  · intro w hw
    obtain ⟨a, ha, rfl⟩ := List.mem_map.mp hw
    exact ⟨a.index, h.below a ha,
      by rw [Arrival.write, hplace a ha, payloadAt_of_mem h.distinct ha]⟩
  · intro i hi
    obtain ⟨a, ha, rfl⟩ := mem_indices.mp (hseen i hi)
    refine List.mem_map.mpr ⟨a, ha, ?_⟩
    rw [Arrival.write, hplace a ha, payloadAt_of_mem h.distinct ha]

section Family

variable {initial : List UInt8} {W : List Arrival} {c : StreamContext}
  {p : Nat → List UInt8}

theorem received_le_startOf (hp : Conforms p W) (hd : (indices W).Nodup) (n : Nat)
    (hn : ∀ a ∈ W, a.index < n) : received W ≤ startOf p n := by
  have hsum : received W = ∑ i ∈ (indices W).toFinset, (p i).length := by
    rw [List.sum_toFinset _ hd, indices, List.map_map, received]
    congr 1
    apply List.map_congr_left
    intro a ha
    simp only [Function.comp_apply, (hp a ha).1]
  rw [hsum]
  apply Finset.sum_le_sum_of_subset
  intro i hi
  obtain ⟨a, ha, rfl⟩ := mem_indices.mp (List.mem_toFinset.mp hi)
  exact Finset.mem_range.mpr (hn a ha)

theorem conforms_append (hp : Conforms p W) (a : Arrival) (hpay : a.payload = p a.index)
    (hdst : a.dstOffset = startOf p a.index) : Conforms p (W ++ [a]) := by
  intro b hb
  cases List.mem_append.mp hb with
  | inl hW => exact hp b hW
  | inr ha => rw [List.mem_singleton.mp ha]; exact ⟨hpay, hdst⟩

/-- A chunk of the family passes every test of `place`, unless it is ahead of
the cursor and finds the record table full. -/
theorem place_conforming (h : Live initial W c) (hp : Conforms p W) (maxParked : Nat)
    (a : Arrival) (hnew : a.index ∉ indices W) (hbelow : a.index < c.totalChunks)
    (hpay : a.payload = p a.index) (hdst : a.dstOffset = startOf p a.index)
    (hsum : startOf p c.totalChunks = c.totalSize)
    (hroom : a.index ≠ c.next → count c.ooo < maxParked) :
    (c.place maxParked false a.index a.dstOffset a.payload).2 = false := by
  have ht := h.tracks
  have htotal := ht.totalSize_le
  have hpW := conforms_append hp a hpay hdst
  have hdW := nodup_append_one ht.distinct hnew
  have hbelowW : ∀ b ∈ W ++ [a], b.index < c.totalChunks := by
    simpa [or_imp, forall_and] using ⟨ht.below, hbelow⟩
  have hfits : received W + a.payload.length ≤ c.totalSize := by
    rw [← received_append, ← hsum]
    exact received_le_startOf hpW hdW _ hbelowW
  have hin : a.dstOffset + a.payload.length ≤ c.totalSize := by
    rw [hdst, hpay, ← startOf_succ, ← hsum]
    exact startOf_mono p hbelow
  have hsize : a.payload.length < 2 ^ 32 := by omega
  simp only [StreamContext.place, write_eq, (ht.fits_iff _ hsize).mpr hfits,
    (Tracks.inBounds_iff c _ _).mpr hin, Bool.not_true, Bool.or_self, Bool.false_eq_true,
    if_false]
  split
  · next hindex =>
      have hcursor : a.dstOffset = c.offset := by
        rw [hdst, hindex, ht.offset_eq, hp.startOf_next ht]
      rw [if_neg (not_not.mpr hcursor)]
      have hstep := ht.inOrder a h.steady hindex hcursor hbelow hfits hin
      exact drain_conforming p initial (W ++ [a]) (count c.ooo) _ hstep hpW
  · next hindex =>
      have hspace := hroom hindex
      simp only [StreamContext.notePlaced, ge_iff_le, if_neg (Nat.not_le.mpr hspace),
        Bool.false_eq_true, if_false]

/-- A family that fits its advertised size is taken in chunk by chunk, and is
delivered exactly when its last index arrives. -/
theorem consume_conforming (h : Live initial W c) (hp : Conforms p W) (maxParked : Nat)
    (a : Arrival) (hnew : a.index ∉ indices W) (hbelow : a.index < c.totalChunks)
    (hpay : a.payload = p a.index) (hdst : a.dstOffset = startOf p a.index)
    (hsum : startOf p c.totalChunks = c.totalSize)
    (hroom : a.index ≠ c.next → count c.ooo < maxParked) :
    ∃ d, SameStream c d ∧ Tracks initial (W ++ [a]) d ∧ Steady d ∧
      if ∀ i, i < c.totalChunks → i ∈ indices (W ++ [a]) then
        c.consume maxParked false a.index a.dstOffset a.payload =
          (d, .complete (concat p c.totalChunks))
      else
        c.consume maxParked false a.index a.dstOffset a.payload = (d, .accepted) ∧
          d.next < d.totalChunks := by
  have hplace := place_conforming h hp maxParked a hnew hbelow hpay hdst hsum hroom
  have hsize : a.payload.length < 2 ^ 32 := by
    have hle := startOf_mono p (show a.index + 1 ≤ c.totalChunks from hbelow)
    have htotal := h.tracks.totalSize_le
    rw [startOf_succ] at hle
    rw [hpay]
    omega
  obtain ⟨d, hd⟩ : ∃ d, c.place maxParked false a.index a.dstOffset a.payload = (d, false) :=
    ⟨_, Prod.ext rfl hplace⟩
  obtain ⟨htracks, hsteady⟩ := tracks_place h maxParked false a hnew hbelow hsize d hd
  have hsame : SameStream c d := by
    simpa only [hd] using sameStream_place c maxParked false a
  have hpW := conforms_append hp a hpay hdst
  have hnotdup : c.isDuplicate a.index = false := by
    rw [Bool.eq_false_iff, ne_eq, h.tracks.isDuplicate_iff]
    exact hnew
  have hconsume : c.consume maxParked false a.index a.dstOffset a.payload =
      if d.next = d.totalChunks then
        if d.offset = d.totalSize then (d, .complete d.buf) else (d, .corrupt)
      else (d, .accepted) := by
    simp [StreamContext.consume, hnotdup, hd]
  refine ⟨d, hsame, htracks, hsteady, ?_⟩
  split
  · next hall =>
      have hnext : d.next = d.totalChunks := by
        have hle := htracks.next_le
        by_contra hne
        obtain ⟨b, hb, hbi⟩ := mem_indices.mp (hall d.next (by rw [← hsame.totalChunks]; omega))
        have hlook := (htracks.parked d.next _).mpr ⟨Nat.le_refl _, b, hb, hbi, rfl⟩
        rw [hsteady] at hlook
        cases hlook
      have hoff : d.offset = d.totalSize := by
        rw [htracks.offset_eq, hpW.startOf_next htracks, hnext, hsame.totalChunks, hsum,
          hsame.totalSize]
      have hbuf := (complete_concat htracks hnext hoff).1
      have hfamily : concat (payloadAt (W ++ [a])) d.totalChunks =
          concat p d.totalChunks := by
        refine concat_congr _ _ _ fun i hi => ?_
        exact hpW.payloadAt_eq htracks.distinct i (htracks.seen i (by omega))
      rw [hconsume, if_pos hnext, if_pos hoff, hbuf, hfamily, hsame.totalChunks]
  · next hmissing =>
      have hnext : d.next ≠ d.totalChunks := by
        intro hnext
        refine hmissing fun i hi => htracks.seen i ?_
        rw [hnext, hsame.totalChunks]
        exact hi
      have hle := htracks.next_le
      rw [hconsume, if_neg hnext]
      exact ⟨rfl, by omega⟩

/-- Completion leaves no room for a misplaced block or a wrong total: the
chunks of a family that completed were a tiling. -/
theorem family_of_complete (q : Nat → List UInt8) (dst : Nat → Nat)
    (h : Tracks initial W c) (hnext : c.next = c.totalChunks) (hoff : c.offset = c.totalSize)
    (hfamily : ∀ a ∈ W, a.payload = q a.index ∧ a.dstOffset = dst a.index) :
    startOf q c.totalChunks = c.totalSize ∧
      ∀ i, i < c.totalChunks → dst i = startOf q i := by
  obtain ⟨-, hseen, hsum, hplace⟩ := complete_concat h hnext hoff
  have hpay : ∀ i, i < c.totalChunks → payloadAt W i = q i := by
    intro i hi
    obtain ⟨a, ha, rfl⟩ := mem_indices.mp (hseen i hi)
    rw [payloadAt_of_mem h.distinct ha, (hfamily a ha).1]
  refine ⟨by rw [← hsum, startOf_congr _ _ _ hpay], ?_⟩
  intro i hi
  obtain ⟨a, ha, rfl⟩ := mem_indices.mp (hseen i hi)
  rw [← (hfamily a ha).2, hplace a ha]
  exact startOf_congr _ _ _ fun j hj => hpay j (by omega)

end Family

/-- An outcome whose data, if any, is replaced. -/
def ChunkOutcome.withData (data : List UInt8) : ChunkOutcome → ChunkOutcome
  | .complete _ => .complete data
  | out => out

namespace StreamContext

/-- The same bookkeeping over another buffer and under another tag. -/
def recast (c : StreamContext) (buf : List UInt8) (tag : Nat) : StreamContext :=
  { c with buf := buf, appMsgType := tag }

section Recast

variable (c : StreamContext) (buf : List UInt8) (tag : Nat)

theorem drain_recast (rounds : Nat) :
    (c.recast buf tag).drain rounds = ((c.drain rounds).1.recast buf tag, (c.drain rounds).2) := by
  induction rounds generalizing c with
  | zero => rfl
  | succ rounds ih =>
    simp only [drain]
    cases hp : c.ooo.lookup c.next with
    | none => simp only [recast, hp]
    | some p =>
      by_cases hdst : p.dstOffset = c.offset
      · have hrest := ih (accountInOrder { c with
          ooo := c.ooo.erase c.next
          oooBytes := (c.oooBytes + 2 ^ 64 - p.size) % 2 ^ 64 } p.size)
        simp only [recast, hp, hdst, ne_eq, not_true_eq_false, if_false]
        exact hrest
      · simp only [recast, hp, ne_eq, hdst, not_false_eq_true, if_true]

theorem notePlaced_recast (index dst n maxParked : Nat) (allocFails : Bool) :
    (c.recast buf tag).notePlaced index dst n maxParked allocFails =
      (c.notePlaced index dst n maxParked allocFails).map fun d => d.recast buf tag := by
  by_cases hfull : count c.ooo ≥ maxParked
  · simp [notePlaced, recast, hfull]
  · cases allocFails with
    | true => simp [notePlaced, recast]
    | false => simp [notePlaced, recast, hfull]

/-- What `place` makes of a buffer: the guards decide alone. -/
def placedBuf (dst : Nat) (data : List UInt8) : List UInt8 :=
  if !c.fits data.length || !c.inBounds dst data.length then buf else overwrite buf dst data

theorem place_recast (maxParked : Nat) (allocFails : Bool) (index dst : Nat)
    (data : List UInt8) :
    (c.recast buf tag).place maxParked allocFails index dst data =
      ((c.place maxParked allocFails index dst data).1.recast (c.placedBuf buf dst data) tag,
        (c.place maxParked allocFails index dst data).2) := by
  have hwrite : (c.recast buf tag).write dst data =
      (c.write dst data).recast (overwrite buf dst data) tag := by
    simp only [write_eq, recast]
  have hfits : (c.recast buf tag).fits data.length = c.fits data.length := rfl
  have hbounds : (c.recast buf tag).inBounds dst data.length = c.inBounds dst data.length := rfl
  simp only [place, placedBuf, hwrite, hfits, hbounds, notePlaced_recast]
  generalize c.write dst data = d
  generalize overwrite buf dst data = after
  split
  · rfl
  · by_cases hindex : index = d.next
    · rw [if_pos hindex, if_pos (show index = (d.recast after tag).next from hindex)]
      by_cases hdst : dst ≠ d.offset
      · rw [if_pos hdst, if_pos (show dst ≠ (d.recast after tag).offset from hdst)]
      · rw [if_neg hdst, if_neg (show ¬ dst ≠ (d.recast after tag).offset from hdst)]
        exact drain_recast (d.accountInOrder data.length) after tag _
    · rw [if_neg hindex, if_neg (show ¬ index = (d.recast after tag).next from hindex)]
      cases d.notePlaced index dst data.length maxParked allocFails with
      | none => rfl
      | some e => rfl

def takenBuf (index dst : Nat) (data : List UInt8) : List UInt8 :=
  if c.isDuplicate index then buf else c.placedBuf buf dst data

/-- Apart from the bytes handed over, the outcome of a chunk does not depend on the buffer
or the tag. -/
theorem consume_recast (maxParked : Nat) (allocFails : Bool) (index dst : Nat)
    (data : List UInt8) :
    (c.recast buf tag).consume maxParked allocFails index dst data =
      ((c.consume maxParked allocFails index dst data).1.recast
          (c.takenBuf buf index dst data) tag,
        (c.consume maxParked allocFails index dst data).2.withData
          (c.takenBuf buf index dst data)) := by
  have hdup : (c.recast buf tag).isDuplicate index = c.isDuplicate index := rfl
  simp only [consume, takenBuf, hdup, place_recast]
  split
  · rfl
  · cases hc : c.place maxParked allocFails index dst data with
    | mk d corrupt =>
      cases corrupt with
      | true => rfl
      | false =>
        by_cases hnext : d.next = d.totalChunks
        · by_cases hoff : d.offset = d.totalSize
          · simp [recast, hnext, hoff, ChunkOutcome.withData]
          · simp [recast, hnext, hoff, ChunkOutcome.withData]
        · simp [recast, hnext, ChunkOutcome.withData]

theorem consume_retag (maxParked : Nat) (allocFails : Bool) (index dst : Nat)
    (data : List UInt8) :
    { c with appMsgType := tag }.consume maxParked allocFails index dst data =
      ({ (c.consume maxParked allocFails index dst data).1 with appMsgType := tag },
        (c.consume maxParked allocFails index dst data).2) := by
  have hsame := c.consume_recast c.buf c.appMsgType maxParked allocFails index dst data
  have hother := c.consume_recast c.buf tag maxParked allocFails index dst data
  obtain ⟨hcontext, houtcome⟩ := Prod.ext_iff.mp hsame
  refine hother.trans (Prod.ext ?_ houtcome.symm)
  exact congrArg (fun d : StreamContext => { d with appMsgType := tag }) hcontext.symm

end Recast

end StreamContext

end ShmIpc.Stream
