import ShmIpc.Stream.ActivityWrap
import ShmIpc.Stream.Completeness

/-!
What every in-flight context of the two reassemblers satisfies between two messages, and
what follows for the arithmetic of the next chunk: no counter wraps, no write leaves the
buffer, and the drain loop ends. The number of contexts is bounded as well, on the Go
side as long as the 64-bit activity counter has not come round.
-/

namespace ShmIpc.Stream
open Library

namespace StreamContext

/-- An in-flight context under the bounds of its reassembler. -/
structure Wellformed (maxStreamChunks maxParked : Nat) (c : StreamContext) : Prop where
  buf : c.buf.length = c.totalSize
  totalSize : c.totalSize ≤ 2 ^ 30
  next : c.next < c.totalChunks
  totalChunks : c.totalChunks ≤ maxStreamChunks
  keys : ∀ i p, c.ooo.lookup i = some p → c.next < i ∧ i < c.totalChunks
  oooBytes : c.oooBytes = weight Placed.size c.ooo
  received : c.offset + c.oooBytes ≤ c.totalSize
  inside : ∀ i p, c.ooo.lookup i = some p → p.dstOffset + p.size ≤ c.totalSize
  parked : count c.ooo ≤ maxParked

/-- The record at the cursor is taken out and accounted. -/
def drainOne (c : StreamContext) (p : Placed) : StreamContext :=
  ({ c with
    ooo := c.ooo.erase c.next
    oooBytes := (c.oooBytes + 2 ^ 64 - p.size) % 2 ^ 64 } : StreamContext).accountInOrder p.size

/-- No subtraction or addition of the first `rounds` rounds of the drain wraps. -/
def DrainSafe : Nat → StreamContext → Prop
  | 0, _ => True
  | rounds + 1, c => ∀ p, c.ooo.lookup c.next = some p → p.size ≤ c.oooBytes ∧
      (p.dstOffset = c.offset → c.offset + p.size < 2 ^ 64 ∧ DrainSafe rounds (c.drainOne p))

/-- What the next chunk can rely on. -/
structure ChunkSafe (c : StreamContext) : Prop where
  noWrap : ∀ n, n < 2 ^ 32 → c.offset + c.oooBytes + n < 2 ^ 64
  writes : ∀ dst n, c.inBounds dst n = true → dst + n ≤ c.buf.length
  drainSafe : ∀ dst data rounds, data.length < 2 ^ 32 → c.fits data.length = true →
    DrainSafe rounds ((c.write dst data).accountInOrder data.length)
  drainEnds : ∀ dst data rounds, count c.ooo ≤ rounds →
    drain rounds ((c.write dst data).accountInOrder data.length) =
      drain (count c.ooo) ((c.write dst data).accountInOrder data.length)

theorem drain_eq_of_le (rounds extra : Nat) (c : StreamContext) (h : count c.ooo ≤ rounds) :
    drain (rounds + extra) c = drain rounds c := by
  induction rounds generalizing c with
  | zero =>
    have hnone : c.ooo.lookup c.next = none := by
      cases hlook : c.ooo.lookup c.next with
      | none => rfl
      | some p =>
        have hsize := count_erase c.ooo c.next p hlook
        omega
    cases extra with
    | zero => rfl
    | succ extra => simp only [drain, hnone]
  | succ rounds ih =>
    rw [Nat.add_right_comm]
    simp only [drain]
    cases hlook : c.ooo.lookup c.next with
    | none => rfl
    | some p =>
      have hsize := count_erase c.ooo c.next p hlook
      have hrest := ih (c.drainOne p) (by
        change count (c.ooo.erase c.next) ≤ rounds
        omega)
      simp only
      split
      · rfl
      · exact hrest

/-- The bytes parked are those of the records, and with the assembled ones few enough. -/
def Balanced (c : StreamContext) : Prop :=
  c.oooBytes = weight Placed.size c.ooo ∧ c.offset + c.oooBytes ≤ 2 ^ 30

theorem drainSafe_of_balanced (rounds : Nat) (c : StreamContext) (h : Balanced c) :
    DrainSafe rounds c := by
  induction rounds generalizing c with
  | zero => trivial
  | succ rounds ih =>
    intro p hlook
    obtain ⟨hbytes, htotal⟩ := h
    have hweight := weight_erase Placed.size c.ooo c.next p hlook
    refine ⟨by omega, fun _ => ⟨by omega, ih _ ?_⟩⟩
    constructor
    · change (c.oooBytes + 2 ^ 64 - p.size) % 2 ^ 64 = weight Placed.size (c.ooo.erase c.next)
      omega
    · change (c.offset + p.size) % 2 ^ 64 + (c.oooBytes + 2 ^ 64 - p.size) % 2 ^ 64 ≤ 2 ^ 30
      omega

theorem Wellformed.chunkSafe {maxStreamChunks maxParked : Nat} {c : StreamContext}
    (h : c.Wellformed maxStreamChunks maxParked) : ChunkSafe c := by
  have hsize := h.totalSize
  have hreceived := h.received
  refine ⟨?_, ?_, ?_, ?_⟩
  · intro n hn
    omega
  · intro dst n hinside
    simp only [inBounds] at hinside
    split at hinside
    · cases hinside
    · have hle := of_decide_eq_true hinside
      rw [h.buf]
      omega
  · intro dst data rounds hn hfits
    have hle : (c.offset + c.oooBytes + data.length) % 2 ^ 64 ≤ c.totalSize :=
      of_decide_eq_true hfits
    rw [Nat.mod_eq_of_lt (by omega)] at hle
    rw [write_eq]
    apply drainSafe_of_balanced
    refine ⟨h.oooBytes, ?_⟩
    change (c.offset + data.length) % 2 ^ 64 + c.oooBytes ≤ 2 ^ 30
    omega
  · intro dst data rounds hrounds
    obtain ⟨extra, rfl⟩ := Nat.exists_eq_add_of_le hrounds
    rw [write_eq]
    exact drain_eq_of_le (count c.ooo) extra _ (Nat.le_refl _)

/-- The bounds a reassembler sets to one context. -/
structure Capped (maxStreamChunks maxParked : Nat) (c : StreamContext) : Prop where
  totalChunks : c.totalChunks ≤ maxStreamChunks
  parked : count c.ooo ≤ maxParked

theorem count_drain_le (rounds : Nat) (c : StreamContext) :
    count (drain rounds c).1.ooo ≤ count c.ooo := by
  induction rounds generalizing c with
  | zero => exact Nat.le_refl _
  | succ rounds ih =>
    simp only [drain]
    split
    · exact Nat.le_refl _
    · split
      · exact count_erase_le _ _
      · exact Nat.le_trans (ih _) (count_erase_le _ _)

theorem count_place_le (c : StreamContext) (maxParked : Nat) (allocFails : Bool)
    (index dstOffset : Nat) (data : List UInt8) (h : count c.ooo ≤ maxParked) :
    count (c.place maxParked allocFails index dstOffset data).1.ooo ≤ maxParked := by
  simp only [place, write_eq]
  split
  · exact h
  · split
    · split
      · exact h
      · exact Nat.le_trans (count_drain_le _ _) h
    · simp only [notePlaced]
      split
      · next hnote => exact h
      · next d hnote =>
          split at hnote
          · cases hnote
          · split at hnote
            · cases hnote
            · cases hnote
              have hle := count_insert_le c.ooo index (⟨dstOffset, data.length % 2 ^ 32⟩ : Placed)
              change count (c.ooo.insert index _) ≤ maxParked
              omega

theorem capped_consume {maxStreamChunks maxParked : Nat} {c : StreamContext}
    (h : Capped maxStreamChunks maxParked c) (allocFails : Bool) (index dstOffset : Nat)
    (data : List UInt8) :
    Capped maxStreamChunks maxParked (c.consume maxParked allocFails index dstOffset data).1 := by
  refine ⟨?_, ?_⟩
  · rw [(sameStream_consume c maxParked allocFails ⟨index, dstOffset, data⟩).totalChunks]
    exact h.totalChunks
  · have hplace := count_place_le c maxParked allocFails index dstOffset data h.parked
    simp only [consume]
    split
    · exact h.parked
    · cases hp : c.place maxParked allocFails index dstOffset data with
      | mk d corrupt =>
        rw [hp] at hplace
        cases corrupt with
        | true => exact hplace
        | false =>
          simp only
          split
          · split
            · exact hplace
            · exact hplace
          · exact hplace

theorem wellformed_of_live {maxStreamChunks maxParked : Nat} {initial : List UInt8}
    {W : List Arrival} {c : StreamContext} (h : Live initial W c)
    (hcapped : Capped maxStreamChunks maxParked c) : c.Wellformed maxStreamChunks maxParked where
  buf := by
    rw [h.tracks.buf_eq, length_applyWrites, h.tracks.initial_length]
    intro w hw
    obtain ⟨a, ha, rfl⟩ := List.mem_map.mp hw
    rw [h.tracks.initial_length]
    exact h.tracks.inside a ha
  totalSize := h.tracks.totalSize_le
  next := h.unfinished
  totalChunks := hcapped.totalChunks
  keys := by
    intro i p hlook
    obtain ⟨hle, a, ha, hi, -⟩ := (h.tracks.parked i p).mp hlook
    have hbelow := h.tracks.below a ha
    have hne : i ≠ c.next := by
      rintro rfl
      rw [h.steady] at hlook
      cases hlook
    omega
  oooBytes := h.tracks.oooBytes_eq
  received := by
    rw [h.tracks.received_eq]
    exact h.tracks.received_le
  inside := by
    intro i p hlook
    obtain ⟨-, a, ha, -, rfl⟩ := (h.tracks.parked i p).mp hlook
    exact h.tracks.inside a ha
  parked := hcapped.parked

theorem capped_fresh {maxStreamChunks : Nat} (maxParked totalSize totalChunks appMsgType : Nat)
    (buf : List UInt8) (h : totalChunks ≤ maxStreamChunks) :
    Capped maxStreamChunks maxParked (fresh totalSize totalChunks appMsgType buf) :=
  ⟨h, Nat.zero_le _⟩

end StreamContext

open StreamContext

/-- Every context in flight is well formed, and safe for the next chunk. -/
structure StateSound (maxStreamChunks maxParked : Nat) (v : InFlight) : Prop where
  wellformed : ∀ id c, v id = some c → c.Wellformed maxStreamChunks maxParked
  chunkSafe : ∀ id c, v id = some c → ChunkSafe c

theorem stateSound_of_history {maxStreamChunks maxParked : Nat} {v : InFlight}
    {t : List Exchange} (h : History v t)
    (hcapped : ∀ id c, v id = some c → Capped maxStreamChunks maxParked c) :
    StateSound maxStreamChunks maxParked v := by
  have hwell : ∀ id c, v id = some c → c.Wellformed maxStreamChunks maxParked := by
    intro id c hc
    obtain ⟨before, st, after, initial, W, haccount⟩ := explained_history h id c hc
    exact wellformed_of_live haccount.live (hcapped id c hc)
  exact ⟨hwell, fun id c hc => (hwell id c hc).chunkSafe⟩

namespace Cpp.StreamReassembler

/-- The map under the bounds of the configuration. -/
structure Bounded (r : StreamReassembler) : Prop where
  capped : ∀ id c, r.streams.lookup id = some c →
    Capped r.config.maxStreamChunks r.config.maxParkedChunks c.toStreamContext
  room : count r.streams ≤ r.config.maxStreams

section Bounded

variable {r : StreamReassembler}

theorem bounded_pruneInternal (h : Bounded r) (now : Int) : Bounded (r.pruneInternal now) where
  capped := by
    intro id c hlook
    simp only [pruneInternal, lookup_keepIf] at hlook
    exact h.capped id c (Option.eq_some_of_filter_eq_some hlook)
  room := Nat.le_trans (count_keepIf_le _ _) h.room

theorem capped_insert (h : Bounded r) (id : Nat) (c : HostContext)
    (hc : Capped r.config.maxStreamChunks r.config.maxParkedChunks c.toStreamContext) :
    ∀ i d, (r.streams.insert id c).lookup i = some d →
      Capped r.config.maxStreamChunks r.config.maxParkedChunks d.toStreamContext := by
  intro i d hlook
  rw [lookup_insert_eq] at hlook
  split at hlook
  · cases hlook
    exact hc
  · exact h.capped i d hlook

theorem bounded_erase (h : Bounded r) (id : Nat) :
    Bounded { r with streams := r.streams.erase id } where
  capped := by
    intro i c hlook
    simp only [lookup_erase_eq] at hlook
    split at hlook
    · cases hlook
    · exact h.capped i c hlook
  room := Nat.le_trans (count_erase_le _ _) h.room

theorem bounded_handleStart (h : Bounded r) (env : Surroundings) (req : List UInt8) :
    Bounded (r.handleStart env req).1 := by
  have hpruned := bounded_pruneInternal h env.pruneTime
  simp only [handleStart]
  split
  · exact h
  · split
    · exact h
    · next hbounds =>
        split
        · split
          · exact h
          · exact h
        · split
          · exact hpruned
          · next hroom =>
              split
              · exact hpruned
              · refine ⟨capped_insert hpruned _ _ (capped_fresh _ _ _ _ _ ?_), ?_⟩
                · change (parseStreamHeader req).totalChunks ≤ r.config.maxStreamChunks
                  omega
                · have hle := count_insert_le (r.pruneInternal env.pruneTime).streams
                    (parseStreamHeader req).streamId
                    ({ StreamContext.fresh (parseStreamHeader req).totalSize
                        (parseStreamHeader req).totalChunks (parseStreamHeader req).appMsgType
                        (env.newBuf (parseStreamHeader req).totalSize).toList with
                      startTime := env.startTime } : HostContext)
                  exact Nat.le_trans hle (Nat.succ_le_of_lt (Nat.lt_of_not_le hroom))

theorem bounded_handleChunk (h : Bounded r) (env : Surroundings) (req : List UInt8) :
    Bounded (r.handleChunk env req).1 := by
  simp only [handleChunk]
  split
  · exact h
  · split
    · exact h
    · split
      · exact h
      · next ctx hctx =>
          have hconsume := capped_consume (h.capped _ ctx hctx) env.allocFails
            (parseChunkHeader req).chunkIndex (parseChunkHeader req).dstOffset (chunkPayload req)
          split
          · exact h
          · split
            · exact h
            · next d hd =>
                rw [hd] at hconsume
                refine ⟨capped_insert h _ _ hconsume, ?_⟩
                exact Nat.le_trans (Nat.le_of_eq (count_insert_of_lookup hctx _)) h.room
            · exact bounded_erase h _
            · exact bounded_erase h _

theorem bounded_apply (h : Bounded r) (e : Event) : Bounded (r.apply e).1 := by
  cases e with
  | message env m req =>
    cases m with
    | streamStart => exact bounded_handleStart h env req
    | streamChunk => exact bounded_handleChunk h env req
    | normal | heartbeatReq | heartbeatResp | shutdown | flatbuffer | guestCall | systemError
    | other => exact h
  | prune now => exact bounded_pruneInternal h now

theorem bounded_run (events : List Event) (h : Bounded r) : Bounded (r.run events).1 := by
  induction events generalizing r with
  | nil => exact h
  | cons e events ih => exact ih (bounded_apply h e)

theorem bounded_construct (cfg : StreamReassemblerConfig) : Bounded (construct cfg) :=
  ⟨by simp [construct], Nat.zero_le _⟩

theorem Bounded.inFlight (h : Bounded r) (id : Nat) (c : StreamContext)
    (hc : r.inFlight id = some c) :
    Capped r.config.maxStreamChunks r.config.maxParkedChunks c := by
  obtain ⟨ctx, hctx, rfl⟩ := Option.map_eq_some_iff.mp hc
  exact h.capped id ctx hctx

end Bounded

end Cpp.StreamReassembler

namespace Go.Reassembler

/-- The contexts and the map after at most `k` messages. -/
structure Tended (s : Reassembler) (k : Nat) : Prop where
  capped : ∀ ref c, s.heap ref = some c → Capped MaxStreamChunks MaxParkedChunks c.toStreamContext
  seq : k < 2 ^ 64 → s.seq ≤ k
  stamped : k < 2 ^ 64 → ∀ ref c, s.heap ref = some c → c.lastSeq ≤ k
  room : k < 2 ^ 64 → count s.streams ≤ MaxConcurrentStreams

section Tended

variable {s : Reassembler} {k : Nat}

theorem tended_new (timeout : Int) : Tended (new timeout) 0 where
  capped := by intro _ _ h; cases h
  seq := fun _ => Nat.le_refl _
  stamped := by intro _ _ _ h; cases h
  room := fun _ => Nat.zero_le _

theorem Tended.later (h : Tended s k) : Tended s (k + 1) where
  capped := h.capped
  seq := fun hk => Nat.le_succ_of_le (h.seq (by omega))
  stamped := fun hk ref c hc => Nat.le_succ_of_le (h.stamped (by omega) ref c hc)
  room := fun hk => h.room (by omega)

theorem Tended.stamp (h : Tended s k) (s' : Reassembler) (hseq : s'.seq = (s.seq + 1) % 2 ^ 64)
    (hheap : ∀ ref c, s'.heap ref = some c →
      Capped MaxStreamChunks MaxParkedChunks c.toStreamContext ∧
        (c.lastSeq = s'.seq ∨ ∃ d, s.heap ref = some d ∧ d.lastSeq = c.lastSeq))
    (hroom : (∀ ref c, s.heap ref = some c → c.lastSeq < 2 ^ 64 - 1) →
      count s.streams ≤ MaxConcurrentStreams → count s'.streams ≤ MaxConcurrentStreams) :
    Tended s' (k + 1) := by
  have hnext : k + 1 < 2 ^ 64 → s'.seq ≤ k + 1 := by
    intro hk
    have hle := h.seq (by omega)
    rw [hseq, Nat.mod_eq_of_lt (by omega)]
    omega
  refine ⟨fun ref c hc => (hheap ref c hc).1, hnext, ?_, ?_⟩
  · intro hk ref c hc
    cases (hheap ref c hc).2 with
    | inl hnew =>
      rw [hnew]
      exact hnext hk
    | inr hold =>
      obtain ⟨d, hd, heq⟩ := hold
      rw [← heq]
      exact Nat.le_succ_of_le (h.stamped (by omega) ref d hd)
  · intro hk
    refine hroom ?_ (h.room (by omega))
    intro ref c hc
    have hle := h.stamped (by omega) ref c hc
    omega

theorem Tended.allocate (h : Tended s k) (c : GuestContext)
    (hc : Capped MaxStreamChunks MaxParkedChunks c.toStreamContext) (hseq : c.lastSeq = 0) :
    Tended (s.allocate c) k := by
  refine ⟨?_, h.seq, ?_, h.room⟩
  · intro ref d hd
    simp only [Reassembler.allocate, setContext, Function.update_apply] at hd
    split at hd
    · cases hd
      exact hc
    · exact h.capped ref d hd
  · intro hk ref d hd
    simp only [Reassembler.allocate, setContext, Function.update_apply] at hd
    split at hd
    · cases hd
      omega
    · exact h.stamped hk ref d hd

theorem Tended.startSection (h : Tended s k) (hq : Quiet s) (now : Int) (streamID ref : Nat)
    (c : GuestContext) (hc : s.heap ref = some c)
    (hunused : ∀ i, s.streams.lookup i ≠ some ref) :
    Tended (s.startSection now streamID ref) (k + 1) := by
  have heq := startSection_eq s now streamID ref c hq.distinct hc hunused
  refine h.stamp _ (congrArg Reassembler.seq heq) ?_ ?_
  · intro r d hd
    by_cases hr : r = ref
    · subst hr
      rw [heq] at hd ⊢
      have hnew : d = { c with lastSeq := (s.seq + 1) % 2 ^ 64, started := now } :=
        Option.some.inj (hd.symm.trans (Function.update_self _ _ _))
      subst hnew
      exact ⟨h.capped r c hc, Or.inl rfl⟩
    · cases heap_startSection s now streamID ref c hq.distinct hc hunused r hr with
      | inl hsame =>
        have hold := hsame.symm.trans hd
        exact ⟨h.capped r d hold, Or.inr ⟨d, hold, rfl⟩⟩
      | inr hburied =>
        obtain ⟨e, he, hbury⟩ := Option.map_eq_some_iff.mp (hburied.2.symm.trans hd)
        subst hbury
        exact ⟨h.capped r e he, Or.inr ⟨e, he, rfl⟩⟩
  · intro hbelow hroom
    rw [heq]
    refine count_makeRoom_insert (s.prune now) streamID ref
      ((count_prune_le s now).trans hroom) ?_
    intro id q hlook
    obtain ⟨d, hd, -⟩ := hq.live id q ((shrinksOff_prune 0 s now).entry id q hlook)
    rw [lastSeqOf_prune, lastSeqOf_eq _ q d hd]
    exact hbelow q d hd

theorem tended_handleStart (h : Tended s k) (hq : Quiet s) (env : Surroundings)
    (req : List UInt8) : Tended (s.handleStart env req).1 (k + 1) := by
  simp only [handleStart]
  split
  · exact h.later
  · split
    · exact h.later
    · next hbounds =>
        split
        · split
          · exact h.later
          · exact h.later
        · have hcapped := capped_fresh MaxParkedChunks
            (parseStreamHeader req).totalSize (parseStreamHeader req).totalChunks
            (parseStreamHeader req).appMsgType
            (env.newBuf (parseStreamHeader req).totalSize).toList
            (Nat.le_of_not_lt fun hlt => hbounds (Or.inl hlt))
          exact (h.allocate _ hcapped rfl).startSection (quiet_allocate s _ hq).1 _ _ _ _
            (Function.update_self _ _ _) fun i hlook => Nat.lt_irrefl _ (hq.below i _ hlook)

theorem tended_lookupSection (h : Tended s k) (id index : Nat) :
    Tended (s.lookupSection id index).1 (k + 1) := by
  simp only [lookupSection]
  split
  · exact h.later
  · next ref hlook =>
      split
      · exact h.later
      · next c hc =>
          split
          · exact h.later
          · refine h.stamp _ rfl ?_ fun _ hroom => hroom
            intro r d hd
            simp only [setContext, Function.update_apply] at hd ⊢
            split at hd
            · cases hd
              exact ⟨h.capped ref c hc, Or.inl rfl⟩
            · exact ⟨h.capped r d hd, Or.inr ⟨d, hd, rfl⟩⟩

theorem Tended.setContext (h : Tended s k) (ref : Nat) (c d : GuestContext)
    (hc : s.heap ref = some c) (hseq : d.lastSeq = c.lastSeq)
    (hd : Capped MaxStreamChunks MaxParkedChunks d.toStreamContext) :
    Tended (s.setContext ref d) k := by
  refine ⟨?_, h.seq, ?_, h.room⟩
  · intro r e he
    simp only [Reassembler.setContext, Function.update_apply] at he
    split at he
    · cases he
      exact hd
    · exact h.capped r e he
  · intro hk r e he
    simp only [Reassembler.setContext, Function.update_apply] at he
    split at he
    · cases he
      rw [hseq]
      exact h.stamped hk ref c hc
    · exact h.stamped hk r e he

theorem tended_contextSection (h : Tended s k) (ref index dst : Nat) (data : List UInt8) :
    Tended (s.contextSection ref index dst data).1 k := by
  simp only [contextSection]
  split
  · exact h
  · next ctx hctx =>
      have hconsume := capped_consume (h.capped ref ctx hctx) false index dst data
      split
      · exact h
      · split
        · exact h
        · next d hd =>
            rw [hd] at hconsume
            exact h.setContext ref ctx _ hctx rfl hconsume
        · next d outcome hd =>
            rw [hd] at hconsume
            exact h.setContext ref ctx _ hctx rfl hconsume

theorem tended_retire (h : Tended s k) (id ref : Nat) : Tended (s.retire id ref) k := by
  simp only [retire]
  split
  · exact ⟨h.capped, h.seq, h.stamped, fun hk => (count_erase_le _ _).trans (h.room hk)⟩
  · exact h

theorem tended_handleChunk (h : Tended s k) (req : List UInt8) :
    Tended (s.handleChunk req).1 (k + 1) := by
  have hlookup := tended_lookupSection h (parseChunkHeader req).streamId
    (parseChunkHeader req).chunkIndex
  simp only [handleChunk]
  split
  · exact h.later
  · split
    · exact h.later
    · split
      · next s' heq =>
          rw [heq] at hlookup
          exact hlookup
      · next s' ref heq =>
          rw [heq] at hlookup
          have hcontext := tended_contextSection hlookup ref (parseChunkHeader req).chunkIndex
            (parseChunkHeader req).dstOffset (chunkPayload req)
          split
          · next hc => rw [hc] at hcontext; exact hcontext
          · next hc => rw [hc] at hcontext; exact hcontext
          · next hc => rw [hc] at hcontext; exact hcontext
          · next hc => rw [hc] at hcontext; exact tended_retire hcontext _ _
          · next hc => rw [hc] at hcontext; exact tended_retire hcontext _ _

theorem tended_handler (h : Tended s k) (hq : Quiet s) (env : Surroundings) (m : MsgType)
    (req : List UInt8) : Tended (s.handler env m req).1 (k + 1) := by
  cases m with
  | streamStart => exact tended_handleStart h hq env req
  | streamChunk => exact tended_handleChunk h req
  | normal | heartbeatReq | heartbeatResp | shutdown | flatbuffer | guestCall | systemError
  | other => exact h.later

theorem tended_run (events : List Event) (h : Tended s k) (hq : Quiet s) :
    Tended (s.run events).1 (k + events.length) := by
  induction events generalizing s k with
  | nil => exact h
  | cons e events ih =>
    have hstep := handler_step s e.env e.msgType e.req hq
    have hrest := ih (tended_handler h hq e.env e.msgType e.req) hstep.2
    rw [List.length_cons, Nat.add_comm events.length 1, ← Nat.add_assoc]
    exact hrest

theorem Tended.inFlight (h : Tended s k) (id : Nat) (c : StreamContext)
    (hc : s.inFlight id = some c) : Capped MaxStreamChunks MaxParkedChunks c := by
  obtain ⟨ref, -, hmap⟩ := Option.bind_eq_some_iff.mp hc
  obtain ⟨ctx, hctx, rfl⟩ := Option.map_eq_some_iff.mp hmap
  exact h.capped ref ctx hctx

end Tended

theorem run_append (s : Reassembler) (events : List Event) (e : Event) :
    (s.run (events ++ [e])).1 = ((s.run events).1.handler e.env e.msgType e.req).1 := by
  induction events generalizing s with
  | nil => rfl
  | cons e' events ih => exact ih _

theorem run_of_calls {s s' : Reassembler} (h : Reachable callStep StillCall s s') :
    ∃ events, (s.run events).1 = s' := by
  induction h with
  | start => exact ⟨[], rfl⟩
  | step r r' e _ _ hstep ih =>
    obtain ⟨events, hrun⟩ := ih
    refine ⟨events ++ [e], ?_⟩
    rw [run_append, hrun]
    exact Option.some.inj hstep

end Go.Reassembler

/-- In every state any messages lead to, the contexts in flight are well formed and safe for
the next chunk, and there are no more of them than allowed; in Go the last as long as the
activity counter cannot have wrapped. -/
theorem reassemblers_stateSound :
    (∀ (cfg : Cpp.StreamReassemblerConfig) (events : List Cpp.Event),
      let r := ((Cpp.StreamReassembler.construct cfg).run events).1
      r.config = cfg.clamp ∧
        StateSound r.config.maxStreamChunks r.config.maxParkedChunks r.inFlight ∧
        count r.streams ≤ r.config.maxStreams) ∧
    ∀ (timeout : Int) (events : List Go.Event),
      let s := ((Go.Reassembler.new timeout).run events).1
      StateSound Go.MaxStreamChunks Go.MaxParkedChunks s.inFlight ∧
        (∀ id ref, s.streams.lookup id = some ref → ∃ c, s.inFlight id = some c) ∧
        (events.length < 2 ^ 64 → count s.streams ≤ Go.MaxConcurrentStreams) := by
  constructor
  · intro cfg events
    obtain ⟨hhistory, hconfig⟩ := Cpp.StreamReassembler.history_run cfg events
    have hbounded := Cpp.StreamReassembler.bounded_run events
      (Cpp.StreamReassembler.bounded_construct cfg)
    exact ⟨hconfig, stateSound_of_history hhistory hbounded.inFlight, hbounded.room⟩
  · intro timeout events
    obtain ⟨hhistory, hquiet⟩ := Go.Reassembler.history_run timeout events
    have htended := Go.Reassembler.tended_run events (Go.Reassembler.tended_new timeout)
      (Go.Reassembler.quiet_new timeout)
    rw [Nat.zero_add] at htended
    refine ⟨stateSound_of_history hhistory htended.inFlight, ?_, htended.room⟩
    intro id ref hlook
    obtain ⟨c, hc, -⟩ := hquiet.live id ref hlook
    refine ⟨c.toStreamContext, ?_⟩
    simp only [Go.Reassembler.inFlight, hlook, Option.bind_some, hc, Option.map_some]

/-- Without that restriction the Go map can outgrow its bound. -/
theorem go_streams_exceed :
    ∃ events, Go.MaxConcurrentStreams <
      count ((Go.Reassembler.new Go.DefaultStreamTimeout).run events).1.streams := by
  obtain ⟨s, hcalls, hcount⟩ := Go.cap_exceeded Go.DefaultStreamTimeout (by decide)
  obtain ⟨events, hrun⟩ := Go.Reassembler.run_of_calls hcalls
  refine ⟨events, ?_⟩
  rw [hrun, hcount]
  exact Nat.lt_succ_self _

end ShmIpc.Stream
