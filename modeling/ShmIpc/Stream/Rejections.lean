import ShmIpc.Stream.StartRules

/-!
What a rejected stream message leaves behind. A message answered `SYSTEM_ERROR` changes
nothing, or drops the one stream it names, and the reasons for the two cases are told
apart here; a start that is refused for lack of room or memory has pruned the map by age
before. A stream that is gone stays gone until its next start, and a repeated chunk of a
stream in flight is acknowledged and otherwise ignored.
-/

namespace ShmIpc.Stream
open Library

/-- Why a chunk makes its stream unusable. -/
inductive Spoils (c : StreamContext) (maxParked : Nat) (allocFails : Bool) (index dst : Nat)
    (data : List UInt8) : Prop
  | byteGuard (h : c.fits data.length = false)
  | bounds (h : c.inBounds dst data.length = false)
  | misplaced (hindex : index = c.next) (h : dst ≠ c.offset)
  | misplacedAtDrain (hindex : index = c.next)
      (h : (StreamContext.drain (count c.ooo)
        ((c.write dst data).accountInOrder data.length)).2 = true)
  | parkBound (hindex : index ≠ c.next) (h : maxParked ≤ count c.ooo)
  | parkMemory (hindex : index ≠ c.next) (h : allocFails = true)
  | undersized (d : StreamContext)
      (hplace : c.place maxParked allocFails index dst data = (d, false))
      (hnext : d.next = d.totalChunks) (hoffset : d.offset ≠ d.totalSize)

section Spoils

variable {c d : StreamContext} {maxParked index dst : Nat} {allocFails : Bool} {data : List UInt8}

theorem spoils_of_place (h : c.place maxParked allocFails index dst data = (d, true)) :
    Spoils c maxParked allocFails index dst data := by
  simp only [StreamContext.place] at h
  split at h
  · next hguard =>
      rw [Bool.or_eq_true, Bool.not_eq_true', Bool.not_eq_true'] at hguard
      cases hguard with
      | inl hfits => exact .byteGuard hfits
      | inr hbounds => exact .bounds hbounds
  · have hnext : (c.write dst data).next = c.next := by rw [write_eq]
    have hoffset : (c.write dst data).offset = c.offset := by rw [write_eq]
    have hooo : (c.write dst data).ooo = c.ooo := by rw [write_eq]
    rw [hnext, hoffset, hooo] at h
    split at h
    · next hindex =>
        split at h
        · next hdst => exact .misplaced hindex hdst
        · exact .misplacedAtDrain hindex (congrArg Prod.snd h)
    · next hindex =>
        simp only [StreamContext.notePlaced, hooo] at h
        split at h
        · next hnone =>
            split at hnone
            · next hfull => exact .parkBound hindex hfull
            · split at hnone
              · next hfails => exact .parkMemory hindex hfails
              · cases hnone
        · cases h

theorem spoils_of_corrupt (h : c.consume maxParked allocFails index dst data = (d, .corrupt)) :
    Spoils c maxParked allocFails index dst data := by
  simp only [StreamContext.consume] at h
  split at h
  · cases h
  · split at h
    · next e hplace => exact spoils_of_place hplace
    · next e hplace =>
        split at h
        · next hnext =>
            split at h
            · cases h
            · next hoffset => exact .undersized e hplace hnext hoffset
        · cases h

end Spoils

/-- A chunk message that does not get as far as a context: it is cut short, or its stream
is unknown, or its index is not below the stream's chunk count. -/
def Unplaced (v : InFlight) (req : List UInt8) : Prop :=
  req.length < chunkHeaderSize + (parseChunkHeader req).payloadSize ∨
    ∀ c, v (parseChunkHeader req).streamId = some c →
      c.totalChunks ≤ (parseChunkHeader req).chunkIndex

/-- The stream that a chunk message names is given up for it. -/
def Costs (v : InFlight) (maxParked : Nat) (allocFails : Bool) (req : List UInt8) : Prop :=
  chunkHeaderSize + (parseChunkHeader req).payloadSize ≤ req.length ∧
    ∃ c, v (parseChunkHeader req).streamId = some c ∧
      (parseChunkHeader req).chunkIndex < c.totalChunks ∧
      Spoils c maxParked allocFails (parseChunkHeader req).chunkIndex
        (parseChunkHeader req).dstOffset (chunkPayload req)

theorem Step.absent {v w : InFlight} {x : Exchange} (h : Step v x w) (id : Nat)
    (hnone : v id = none)
    (hstart : x.msgType = .streamStart → (parseStreamHeader x.req).streamId ≠ id) :
    w id = none ∧ (x.msgType = .streamChunk → (parseChunkHeader x.req).streamId = id →
      x.answer = some .error) := by
  have hfound : ∀ {req : List UInt8} {c : StreamContext},
      v (parseChunkHeader req).streamId = some c → (parseChunkHeader req).streamId ≠ id := by
    rintro req c hc rfl
    rw [hnone] at hc
    cases hc
  cases h with
  | ignored m req _ hchunk => exact ⟨hnone, fun hm => absurd hm hchunk⟩
  | refused w m req hw =>
    refine ⟨?_, fun _ _ => rfl⟩
    cases hw id with
    | inl hsame => rw [hsame, hnone]
    | inr hgone => exact hgone
  | empty req hchunks => exact ⟨hnone, fun hm => by cases hm⟩
  | opened w req buf hbuf hsize hchunks hw =>
    refine ⟨?_, fun hm => by cases hm⟩
    rw [Function.update_of_ne (Ne.symm (hstart rfl))]
    cases hw id with
    | inl hsame => rw [hsame, hnone]
    | inr hgone => exact hgone
  | repeated req c d maxParked allocFails hc hd =>
    exact ⟨hnone, fun _ hid => absurd hid (hfound hc)⟩
  | accepted req c d maxParked allocFails hc hindex hd
  | completed req data c d maxParked allocFails hc hindex hd =>
    refine ⟨?_, fun _ hid => absurd hid (hfound hc)⟩
    rw [Function.update_of_ne (Ne.symm (hfound hc))]
    exact hnone

/-- A chunk of `id` with this index has been accepted since the latest start of `id`. -/
def AcceptedSince (t : List Exchange) (id index : Nat) : Prop :=
  ∃ before st after x, LatestOpen id t before st after ∧ x ∈ after ∧ x.accepts id index = true

theorem LatestOpen.unique {id : Nat} {t before before' after after' : List Exchange}
    {st st' : Exchange} (h : LatestOpen id t before st after)
    (h' : LatestOpen id t before' st' after') : after = after' := by
  have hsplit := h.split.symm.trans h'.split
  rw [List.append_eq_append_iff] at hsplit
  cases hsplit with
  | inl hlonger =>
    obtain ⟨mid, -, hmid⟩ := hlonger
    cases mid with
    | nil => exact (List.cons.inj hmid).2
    | cons y mid =>
      have hmem : st' ∈ after := by
        rw [(List.cons.inj hmid).2]
        simp
      exact absurd h'.opens (by rw [h.latest st' hmem]; simp)
  | inr hshorter =>
    obtain ⟨mid, -, hmid⟩ := hshorter
    cases mid with
    | nil => exact (List.cons.inj hmid).2.symm
    | cons y mid =>
      have hmem : st ∈ after' := by
        rw [(List.cons.inj hmid).2]
        simp
      exact absurd h.opens (by rw [h'.latest st hmem]; simp)

/-- A context in flight recognises every index accepted since its start. -/
theorem consume_of_acceptedSince {v : InFlight} {t : List Exchange} (h : History v t)
    {id index : Nat} {c : StreamContext} (hc : v id = some c) (hseen : AcceptedSince t id index) :
    index < c.totalChunks ∧ ∀ maxParked allocFails dst data,
      c.consume maxParked allocFails index dst data = (c, .duplicate) := by
  obtain ⟨before, st, after, initial, W, haccount⟩ := explained_history h id c hc
  obtain ⟨before', st', after', x, hopen, hx, haccepts⟩ := hseen
  rw [hopen.unique haccount.start] at hx
  have hmem := haccount.recorded.all x hx index haccepts
  obtain ⟨a, ha, hindex⟩ := mem_indices.mp hmem
  refine ⟨hindex ▸ haccount.live.tracks.below a ha, ?_⟩
  intro maxParked allocFails dst data
  have hdup := (haccount.live.tracks.isDuplicate_iff index).mpr hmem
  simp only [StreamContext.consume, hdup, if_true]

namespace Cpp.StreamReassembler

variable (r : StreamReassembler) (env : Surroundings)

/-- What a rejected message does to the host's map. -/
inductive Rejects : MsgType → List UInt8 → StreamReassembler → Prop
  | malformed (req : List UInt8)
      (hkind : startKind r.config.maxStreamSize r.config.maxStreamChunks req = .malformed) :
      Rejects .streamStart req r
  | noRoom (req : List UInt8)
      (hkind : startKind r.config.maxStreamSize r.config.maxStreamChunks req = .opening) :
      Rejects .streamStart req (r.pruneInternal env.pruneTime)
  | kept (req : List UInt8) (h : Unplaced r.inFlight req) : Rejects .streamChunk req r
  | dropped (req : List UInt8)
      (h : Costs r.inFlight r.config.maxParkedChunks env.allocFails req) :
      Rejects .streamChunk req
        { r with streams := r.streams.erase (parseChunkHeader req).streamId }

theorem rejects_handleStart (req : List UInt8)
    (h : (r.handleStart env req).2.reply = .systemError) :
    (r.handleStart env req).2 = .error ∧
      r.Rejects env .streamStart req (r.handleStart env req).1 := by
  rw [handleStart_eq] at h ⊢
  cases hkind : startKind r.config.maxStreamSize r.config.maxStreamChunks req with
  | malformed => exact ⟨rfl, .malformed req hkind⟩
  | empty => rw [hkind] at h; cases h
  | opening =>
    rw [hkind] at h
    cases r.openStream_cases env req with
    | inl hrefused =>
      simp only [hrefused.2]
      exact ⟨trivial, .noRoom req hkind⟩
    | inr hopened =>
      simp only [hopened.2] at h
      cases h

theorem rejects_handleChunk (req : List UInt8)
    (h : (r.handleChunk env req).2.reply = .systemError) :
    (r.handleChunk env req).2 = .error ∧
      r.Rejects env .streamChunk req (r.handleChunk env req).1 := by
  simp only [handleChunk] at h ⊢
  split at h
  · next hshort =>
      rw [if_pos hshort]
      exact ⟨rfl, .kept req (Or.inl (Nat.lt_add_right _ hshort))⟩
  · next hlong =>
      rw [if_neg hlong]
      split at h
      · next hcut =>
          rw [if_pos hcut]
          exact ⟨rfl, .kept req (Or.inl hcut)⟩
      · next hwhole =>
          rw [if_neg hwhole]
          split at h
          · next hlook =>
              refine ⟨rfl, .kept req (Or.inr ?_)⟩
              simp [inFlight, hlook]
          · next ctx hlook =>
              have hflight : r.inFlight (parseChunkHeader req).streamId =
                  some ctx.toStreamContext := by simp [inFlight, hlook]
              split at h
              · next hindex =>
                  simp only [if_pos hindex]
                  refine ⟨trivial, .kept req (Or.inr ?_)⟩
                  intro c hc
                  rw [hflight] at hc
                  cases hc
                  exact hindex
              · next hindex =>
                  simp only [if_neg hindex]
                  split at h
                  · cases h
                  · cases h
                  · next d hd =>
                      exact ⟨rfl, .dropped req ⟨Nat.not_lt.mp hwhole, _, hflight,
                        Nat.lt_of_not_le hindex, spoils_of_corrupt hd⟩⟩
                  · cases h

theorem unknown_run (id : Nat) (events : List Event) (hsize : r.config.maxStreamSize ≤ 2 ^ 30)
    (hnone : r.inFlight id = none)
    (hstarts : ∀ env req, .message env .streamStart req ∈ events →
      (parseStreamHeader req).streamId ≠ id) :
    ∀ x ∈ (r.run events).2, x.msgType = .streamChunk → (parseChunkHeader x.req).streamId = id →
      x.answer = some .error := by
  induction events generalizing r with
  | nil => simp [run]
  | cons e events ih =>
    have hlater := fun env req hmem => hstarts env req (List.mem_cons_of_mem e hmem)
    have hconfig := config_apply r e hsize
    intro x hx
    cases e with
    | prune now =>
      refine ih (r.pruneInternal now) hsize ?_ hlater x hx
      cases discards_pruneInternal r now id with
      | inl hsame => rw [hsame, hnone]
      | inr hgone => exact hgone
    | message env m req =>
      obtain ⟨habsent, hanswer⟩ := (handle_step r env m req hsize).1.absent id hnone
        (by rintro hm; simp only at hm; subst hm; exact hstarts env req List.mem_cons_self)
      cases List.mem_append.mp hx with
      | inl hnow =>
        rw [List.mem_singleton.mp hnow]
        exact hanswer
      | inr hafter =>
        exact ih (r.apply (.message env m req)).1 (by rw [hconfig]; exact hsize) habsent
          hlater x hafter

theorem handleChunk_duplicate (req : List UInt8) (c : StreamContext)
    (hlen : chunkHeaderSize + (parseChunkHeader req).payloadSize ≤ req.length)
    (hc : r.inFlight (parseChunkHeader req).streamId = some c)
    (hindex : (parseChunkHeader req).chunkIndex < c.totalChunks)
    (hdup : ∀ maxParked allocFails dst data, c.consume maxParked allocFails
      (parseChunkHeader req).chunkIndex dst data = (c, .duplicate)) :
    r.handleChunk env req = (r, .ack) := by
  obtain ⟨ctx, hlook, rfl⟩ := Option.map_eq_some_iff.mp hc
  have hshort : ¬ req.length < chunkHeaderSize := by omega
  simp only [handleChunk, if_neg hshort, if_neg (Nat.not_lt.mpr hlen), hlook,
    if_neg (Nat.not_le.mpr hindex), hdup]

end Cpp.StreamReassembler

namespace Go.Reassembler

def touch (s : Reassembler) (ref : Nat) (c : GuestContext) : Reassembler :=
  ({ s with seq := s.nextSeq } : Reassembler).setContext ref { c with lastSeq := s.nextSeq }

section Chunk

variable {s : Reassembler} {req : List UInt8}

theorem handleChunk_unplaced (hq : s.Quiet) (h : Unplaced s.inFlight req) :
    s.handleChunk req = (s, .error) := by
  simp only [handleChunk]
  split
  · rfl
  · split
    · rfl
    · next hwhole =>
        cases h with
        | inl hcut => exact absurd hcut hwhole
        | inr hindex =>
          cases lookupSection_spec hq (parseChunkHeader req).streamId
              (parseChunkHeader req).chunkIndex with
          | inl hnone => rw [hnone.1]
          | inr hsome =>
            obtain ⟨s', ref, c, -, hf⟩ := hsome
            have hle := hindex c.toStreamContext hf.inFlight_self
            have hlt := hf.index_lt
            omega

/-- A chunk call that finds its stream: the activity stamp, then what the context makes of
the chunk. -/
theorem handleChunk_placed (hq : s.Quiet) {ref : Nat} {c : GuestContext}
    (hlen : chunkHeaderSize + (parseChunkHeader req).payloadSize ≤ req.length)
    (hlook : s.streams.lookup (parseChunkHeader req).streamId = some ref)
    (hheap : s.heap ref = some c) (hindex : (parseChunkHeader req).chunkIndex < c.totalChunks) :
    s.handleChunk req =
      match c.toStreamContext.consume MaxParkedChunks false (parseChunkHeader req).chunkIndex
          (parseChunkHeader req).dstOffset (chunkPayload req) with
      | (_, .duplicate) => (s.touch ref c, .ack)
      | (d, .accepted) =>
        ((s.touch ref c).setContext ref
          { c with toStreamContext := d, lastSeq := s.nextSeq }, .ack)
      | (d, .corrupt) =>
        ({ (s.touch ref c).setContext ref
            { c with toStreamContext := d, lastSeq := s.nextSeq, done := true } with
          streams := s.streams.erase (parseChunkHeader req).streamId }, .error)
      | (d, .complete data) =>
        ({ (s.touch ref c).setContext ref
            { c with toStreamContext := d, lastSeq := s.nextSeq, done := true } with
          streams := s.streams.erase (parseChunkHeader req).streamId },
          ⟨.normal, some ⟨(parseChunkHeader req).streamId, d.appMsgType, data⟩⟩) := by
  obtain ⟨c', hc', hdone, hdead⟩ := hq.live _ ref hlook
  rw [hheap] at hc'
  cases hc'
  have hshort : ¬ req.length < chunkHeaderSize := by omega
  have hlookup : s.lookupSection (parseChunkHeader req).streamId
      (parseChunkHeader req).chunkIndex = (s.touch ref c, some ref) := by
    simp only [lookupSection, hlook, hheap, if_neg (Nat.not_le.mpr hindex)]
    rfl
  have hself : (s.touch ref c).heap ref = some { c with lastSeq := s.nextSeq } :=
    Function.update_self _ _ _
  have hretire : ∀ d : GuestContext, ((s.touch ref c).setContext ref d).retire
      (parseChunkHeader req).streamId ref = { (s.touch ref c).setContext ref d with
        streams := s.streams.erase (parseChunkHeader req).streamId } :=
    fun _ => if_pos hlook
  simp only [handleChunk, if_neg hshort, if_neg (Nat.not_lt.mpr hlen), hlookup, contextSection,
    hself, hdone, hdead, Bool.or_self, Bool.false_eq_true, if_false]
  cases hconsume : c.toStreamContext.consume MaxParkedChunks false
      (parseChunkHeader req).chunkIndex (parseChunkHeader req).dstOffset (chunkPayload req) with
  | mk d outcome =>
    cases outcome with
    | duplicate => rfl
    | accepted => rfl
    | corrupt => simp only [hretire]
    | complete data =>
      simp only [hretire]
      simp only [setContext, Function.update_self, Option.map_some, Option.getD_some]

/-- What a rejected message does to the guest's map. -/
inductive Rejects (s : Reassembler) : MsgType → List UInt8 → Reassembler → Prop
  | malformed (req : List UInt8)
      (hkind : startKind MaxStreamSize MaxStreamChunks req = .malformed) :
      Rejects s .streamStart req s
  | kept (req : List UInt8) (h : Unplaced s.inFlight req) : Rejects s .streamChunk req s
  | dropped (req : List UInt8) (s' : Reassembler)
      (h : Costs s.inFlight MaxParkedChunks false req)
      (hgone : s'.contextOf (parseChunkHeader req).streamId = none)
      (hothers : ∀ id, id ≠ (parseChunkHeader req).streamId → s'.contextOf id = s.contextOf id) :
      Rejects s .streamChunk req s'

theorem contextOf_update (hq : s.Quiet) {id ref : Nat} (hlook : s.streams.lookup id = some ref)
    (heap : Nat → Option GuestContext) (hheap : ∀ r, r ≠ ref → heap r = s.heap r) (i : Nat)
    (hi : i ≠ id) : (s.streams.lookup i).bind heap = s.contextOf i := by
  cases hother : s.streams.lookup i with
  | none => simp only [contextOf, hother, Option.bind_none]
  | some r =>
    have hr : r ≠ ref := fun heq => hi (hq.distinct i id ref (heq ▸ hother) hlook)
    simp only [contextOf, hother, Option.bind_some, hheap r hr]

theorem exists_placed (hq : s.Quiet) (h : ¬ Unplaced s.inFlight req) :
    chunkHeaderSize + (parseChunkHeader req).payloadSize ≤ req.length ∧
      ∃ ref c, s.streams.lookup (parseChunkHeader req).streamId = some ref ∧
        s.heap ref = some c ∧ (parseChunkHeader req).chunkIndex < c.totalChunks := by
  simp only [Unplaced, not_or, Nat.not_lt] at h
  refine ⟨h.1, ?_⟩
  cases hlook : s.streams.lookup (parseChunkHeader req).streamId with
  | none => exact absurd (by simp [inFlight, hlook]) h.2
  | some ref =>
    obtain ⟨c, hc, -⟩ := hq.live _ ref hlook
    refine ⟨ref, c, rfl, hc, ?_⟩
    by_contra hindex
    apply h.2
    intro d hd
    simp only [inFlight, hlook, Option.bind_some, hc, Option.map_some] at hd
    cases hd
    exact Nat.not_lt.mp hindex

theorem rejects_handleChunk (hq : s.Quiet) (h : (s.handleChunk req).2.reply = .systemError) :
    (s.handleChunk req).2 = .error ∧ s.Rejects .streamChunk req (s.handleChunk req).1 := by
  by_cases hunplaced : Unplaced s.inFlight req
  · rw [handleChunk_unplaced hq hunplaced]
    exact ⟨rfl, .kept req hunplaced⟩
  · obtain ⟨hlen, ref, c, hlook, hheap, hindex⟩ := exists_placed hq hunplaced
    have hcall := handleChunk_placed hq hlen hlook hheap hindex
    cases hconsume : c.toStreamContext.consume MaxParkedChunks false
        (parseChunkHeader req).chunkIndex (parseChunkHeader req).dstOffset
        (chunkPayload req) with
    | mk d outcome =>
      rw [hconsume] at hcall
      cases outcome with
      | duplicate | accepted | complete data => rw [hcall] at h; cases h
      | corrupt =>
        have hflight : s.inFlight (parseChunkHeader req).streamId =
            some c.toStreamContext := by simp [inFlight, hlook, hheap]
        rw [hcall]
        refine ⟨rfl, .dropped req _ ⟨hlen, _, hflight, hindex, spoils_of_corrupt hconsume⟩
          ?_ ?_⟩
        · simp only [contextOf, lookup_erase_eq, if_true, Option.bind_none]
        · intro i hi
          simp only [contextOf, lookup_erase_eq, if_neg hi]
          apply contextOf_update hq hlook _ _ i hi
          intro r hr
          simp only [touch, setContext, Function.update_of_ne hr]

theorem rejects_handleStart (env : Surroundings)
    (h : (s.handleStart env req).2.reply = .systemError) :
    (s.handleStart env req).2 = .error ∧ s.Rejects .streamStart req (s.handleStart env req).1 := by
  rw [handleStart_eq] at h ⊢
  cases hkind : startKind MaxStreamSize MaxStreamChunks req with
  | malformed => exact ⟨rfl, .malformed req hkind⟩
  | empty | opening => rw [hkind] at h; cases h

/-- Nothing but activity stamps differs. -/
structure Stamped (s s' : Reassembler) (id : Nat) : Prop where
  streams : s'.streams = s.streams
  self : ∃ seq, s'.contextOf id = (s.contextOf id).map fun c => { c with lastSeq := seq }
  others : ∀ i, i ≠ id → s'.contextOf i = s.contextOf i

theorem handleChunk_duplicate (hq : s.Quiet) (c : StreamContext)
    (hlen : chunkHeaderSize + (parseChunkHeader req).payloadSize ≤ req.length)
    (hc : s.inFlight (parseChunkHeader req).streamId = some c)
    (hindex : (parseChunkHeader req).chunkIndex < c.totalChunks)
    (hdup : ∀ maxParked allocFails dst data, c.consume maxParked allocFails
      (parseChunkHeader req).chunkIndex dst data = (c, .duplicate)) :
    (s.handleChunk req).2 = .ack ∧
      Stamped s (s.handleChunk req).1 (parseChunkHeader req).streamId := by
  obtain ⟨ref, hlook, hmap⟩ := Option.bind_eq_some_iff.mp hc
  obtain ⟨ctx, hheap, rfl⟩ := Option.map_eq_some_iff.mp hmap
  have hcall := handleChunk_placed hq hlen hlook hheap hindex
  rw [hdup] at hcall
  rw [hcall]
  refine ⟨rfl, rfl, ⟨s.nextSeq, ?_⟩, ?_⟩
  · simp only [contextOf, touch, setContext, hlook, Option.bind_some, Function.update_self, hheap,
      Option.map_some]
  · intro i hi
    apply contextOf_update hq hlook _ _ i hi
    intro r hr
    exact Function.update_of_ne hr _ _

theorem unknown_run (s : Reassembler) (id : Nat) (events : List Event) (hq : s.Quiet)
    (hnone : s.inFlight id = none)
    (hstarts : ∀ env req, ⟨env, .streamStart, req⟩ ∈ events →
      (parseStreamHeader req).streamId ≠ id) :
    ∀ x ∈ (s.run events).2, x.msgType = .streamChunk → (parseChunkHeader x.req).streamId = id →
      x.answer = some .error := by
  induction events generalizing s with
  | nil => simp [run]
  | cons e events ih =>
    obtain ⟨env, m, req⟩ := e
    obtain ⟨hstep, hquiet⟩ := handler_step s env m req hq
    obtain ⟨habsent, hanswer⟩ := hstep.absent id hnone
      (by rintro hm; simp only at hm; subst hm; exact hstarts env req List.mem_cons_self)
    intro x hx
    cases List.mem_cons.mp hx with
    | inl hnow =>
      rw [hnow]
      exact hanswer
    | inr hafter =>
      exact ih _ hquiet habsent
        (fun env req hmem => hstarts env req (List.mem_cons_of_mem _ hmem)) x hafter

end Chunk

end Go.Reassembler

/-- In every state either reassembler can reach: a message answered `SYSTEM_ERROR` makes no
callback and changes nothing or drops the stream it names; a stream that is not in flight
stays unknown to all later chunks until its next start; and a well-framed repetition of a
chunk accepted since the stream's start is acknowledged and changes nothing. -/
theorem rejections_scoped :
    (∀ (cfg : Cpp.StreamReassemblerConfig) (events : List Cpp.Event),
      (∀ env m req a, (((Cpp.StreamReassembler.construct cfg).run events).1.handle env m
          req).2 = some a → a.reply = .systemError →
        a.delivered = none ∧ ((Cpp.StreamReassembler.construct cfg).run events).1.Rejects env m req
          (((Cpp.StreamReassembler.construct cfg).run events).1.handle env m req).1) ∧
      (∀ id later, ((Cpp.StreamReassembler.construct cfg).run events).1.inFlight id = none →
        (∀ env req, .message env .streamStart req ∈ later →
          (parseStreamHeader req).streamId ≠ id) →
        ∀ x ∈ (((Cpp.StreamReassembler.construct cfg).run events).1.run later).2,
          x.msgType = .streamChunk → (parseChunkHeader x.req).streamId = id →
          x.answer = some .error) ∧
      (∀ env req, chunkHeaderSize + (parseChunkHeader req).payloadSize ≤ req.length →
        (((Cpp.StreamReassembler.construct cfg).run events).1.inFlight
          (parseChunkHeader req).streamId).isSome = true →
        AcceptedSince ((Cpp.StreamReassembler.construct cfg).run events).2
          (parseChunkHeader req).streamId (parseChunkHeader req).chunkIndex →
        ((Cpp.StreamReassembler.construct cfg).run events).1.handle env .streamChunk req =
          (((Cpp.StreamReassembler.construct cfg).run events).1, some .ack))) ∧
    ∀ (timeout : Int) (events : List Go.Event),
      (∀ env m req a, (((Go.Reassembler.new timeout).run events).1.handler env m
          req).2 = some a → a.reply = .systemError →
        a.delivered = none ∧ ((Go.Reassembler.new timeout).run events).1.Rejects m req
          (((Go.Reassembler.new timeout).run events).1.handler env m req).1) ∧
      (∀ id later, ((Go.Reassembler.new timeout).run events).1.inFlight id = none →
        (∀ env req, ⟨env, .streamStart, req⟩ ∈ later → (parseStreamHeader req).streamId ≠ id) →
        ∀ x ∈ (((Go.Reassembler.new timeout).run events).1.run later).2,
          x.msgType = .streamChunk → (parseChunkHeader x.req).streamId = id →
          x.answer = some .error) ∧
      (∀ env req, chunkHeaderSize + (parseChunkHeader req).payloadSize ≤ req.length →
        (((Go.Reassembler.new timeout).run events).1.inFlight
          (parseChunkHeader req).streamId).isSome = true →
        AcceptedSince ((Go.Reassembler.new timeout).run events).2
          (parseChunkHeader req).streamId (parseChunkHeader req).chunkIndex →
        (((Go.Reassembler.new timeout).run events).1.handler env .streamChunk req).2 =
            some .ack ∧
          Go.Reassembler.Stamped ((Go.Reassembler.new timeout).run events).1
            (((Go.Reassembler.new timeout).run events).1.handler env .streamChunk req).1
            (parseChunkHeader req).streamId) := by
  constructor
  · intro cfg events
    obtain ⟨hhistory, hconfig⟩ := Cpp.StreamReassembler.history_run cfg events
    have hsize := Cpp.StreamReassembler.clamp_maxStreamSize cfg
    rw [← hconfig] at hsize
    refine ⟨?_, ?_, ?_⟩
    · intro env m req a ha hreply
      cases m with
      | streamStart =>
        cases ha
        obtain ⟨herror, hrejects⟩ := Cpp.StreamReassembler.rejects_handleStart _ env req hreply
        exact ⟨congrArg Answer.delivered herror, hrejects⟩
      | streamChunk =>
        cases ha
        obtain ⟨herror, hrejects⟩ := Cpp.StreamReassembler.rejects_handleChunk _ env req hreply
        exact ⟨congrArg Answer.delivered herror, hrejects⟩
      | normal | heartbeatReq | heartbeatResp | shutdown | flatbuffer | guestCall | systemError
      | other => cases ha
    · intro id later hnone hstarts
      exact Cpp.StreamReassembler.unknown_run _ id later hsize hnone hstarts
    · intro env req hlen hflight hseen
      obtain ⟨c, hc⟩ := Option.isSome_iff_exists.mp hflight
      obtain ⟨hindex, hdup⟩ := consume_of_acceptedSince hhistory hc hseen
      have hcall := Cpp.StreamReassembler.handleChunk_duplicate _ env req c hlen hc hindex hdup
      simp only [Cpp.StreamReassembler.handle, hcall]
  · intro timeout events
    obtain ⟨hhistory, hquiet⟩ := Go.Reassembler.history_run timeout events
    refine ⟨?_, ?_, ?_⟩
    · intro env m req a ha hreply
      cases m with
      | streamStart =>
        cases ha
        obtain ⟨herror, hrejects⟩ := Go.Reassembler.rejects_handleStart env hreply
        exact ⟨congrArg Answer.delivered herror, hrejects⟩
      | streamChunk =>
        cases ha
        obtain ⟨herror, hrejects⟩ := Go.Reassembler.rejects_handleChunk hquiet hreply
        exact ⟨congrArg Answer.delivered herror, hrejects⟩
      | normal | heartbeatReq | heartbeatResp | shutdown | flatbuffer | guestCall | systemError
      | other => cases ha
    · intro id later hnone hstarts
      exact Go.Reassembler.unknown_run _ id later hquiet hnone hstarts
    · intro env req hlen hflight hseen
      obtain ⟨c, hc⟩ := Option.isSome_iff_exists.mp hflight
      obtain ⟨hindex, hdup⟩ := consume_of_acceptedSince hhistory hc hseen
      obtain ⟨hanswer, hstamped⟩ :=
        Go.Reassembler.handleChunk_duplicate hquiet c hlen hc hindex hdup
      exact ⟨congrArg some hanswer, hstamped⟩

/-- Four bytes for the first block of a three-byte stream. -/
def oversizedBlock : List UInt8 := putChunkHeader ⟨7, 0, 4, 0, 0⟩ ++ [1, 1, 1, 1]

theorem rejections_scoped_twoBlocks :
    ((Cpp.StreamReassembler.construct {}).run [.message zeroHost .streamStart twoBlocksStart,
        .message zeroHost .streamChunk secondBlock]).1.Rejects zeroHost .streamChunk oversizedBlock
      (((Cpp.StreamReassembler.construct {}).run [.message zeroHost .streamStart twoBlocksStart,
        .message zeroHost .streamChunk secondBlock]).1.handle zeroHost .streamChunk
          oversizedBlock).1 ∧
    (((Go.Reassembler.new 0).run [⟨zeroGuest, .streamStart, twoBlocksStart⟩,
        ⟨zeroGuest, .streamChunk, secondBlock⟩]).1.handler zeroGuest .streamChunk
          secondBlockAgain).2 = some .ack := by
  constructor
  · exact ((rejections_scoped.1 {} [.message zeroHost .streamStart twoBlocksStart,
      .message zeroHost .streamChunk secondBlock]).1 zeroHost .streamChunk oversizedBlock .error
      (by decide) rfl).2
  · refine ((rejections_scoped.2 0 [⟨zeroGuest, .streamStart, twoBlocksStart⟩,
      ⟨zeroGuest, .streamChunk, secondBlock⟩]).2.2 zeroGuest secondBlockAgain (by decide)
      (by decide) ?_).1
    refine ⟨[], _, [_], _, ⟨rfl, by decide, ?_⟩, List.mem_singleton_self _, by decide⟩
    intro x hx
    rw [List.mem_singleton.mp hx]
    decide

end ShmIpc.Stream
