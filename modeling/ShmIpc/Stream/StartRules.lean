import ShmIpc.Stream.StateInvariant

/-!
What a `STREAM_START` comes to, in both reassemblers. The header alone decides between
a malformed start, an empty stream and an opening one; only an opening start looks at
the map. From this the exact conditions are read off under which a start is accepted as
the specification words it, and under which a live stream can be restarted.
-/

namespace ShmIpc.Stream
open Library

/-- What the header of a start settles before any state is looked at. -/
inductive StartKind
  | malformed
  | empty
  | opening
  deriving DecidableEq, Repr

def startKind (maxStreamSize maxStreamChunks : Nat) (req : List UInt8) : StartKind :=
  if req.length < streamHeaderSize then .malformed
  else if maxStreamSize < (parseStreamHeader req).totalSize ∨
      maxStreamChunks < (parseStreamHeader req).totalChunks then .malformed
  else if (parseStreamHeader req).totalChunks = 0 then
    if (parseStreamHeader req).totalSize ≠ 0 then .malformed else .empty
  else .opening

/-- The answer to the start of an empty stream, which completes it. -/
def emptyAnswer (req : List UInt8) : Answer :=
  ⟨.normal, some ⟨(parseStreamHeader req).streamId, (parseStreamHeader req).appMsgType, []⟩⟩

/-- The context an opening start puts in flight. -/
def openedContext (req buf : List UInt8) : StreamContext :=
  .fresh (parseStreamHeader req).totalSize (parseStreamHeader req).totalChunks
    (parseStreamHeader req).appMsgType buf

section StartKind

variable {maxStreamSize maxStreamChunks : Nat} {req : List UInt8}

theorem startKind_opening_iff :
    startKind maxStreamSize maxStreamChunks req = .opening ↔
      streamHeaderSize ≤ req.length ∧ (parseStreamHeader req).totalSize ≤ maxStreamSize ∧
        (parseStreamHeader req).totalChunks ≤ maxStreamChunks ∧
        0 < (parseStreamHeader req).totalChunks := by
  simp only [startKind]
  split
  · next hshort =>
      simp only [reduceCtorEq, false_iff]
      omega
  · split
    · next hbounds =>
        simp only [reduceCtorEq, false_iff]
        omega
    · split
      · next hzero =>
          have hnot : ¬ 0 < (parseStreamHeader req).totalChunks := by omega
          split <;> simp [hnot]
      · simp only [true_iff]
        omega

/-- What the header test lets through: of the two mismatches between a chunk count and a
size it refuses one. -/
theorem startKind_ne_malformed_iff :
    startKind maxStreamSize maxStreamChunks req ≠ .malformed ↔
      streamHeaderSize ≤ req.length ∧ (parseStreamHeader req).totalSize ≤ maxStreamSize ∧
        (parseStreamHeader req).totalChunks ≤ maxStreamChunks ∧
        ((parseStreamHeader req).totalChunks = 0 → (parseStreamHeader req).totalSize = 0) := by
  simp only [startKind]
  split
  · next hshort =>
      simp only [ne_eq, not_true_eq_false, false_iff]
      omega
  · split
    · next hbounds =>
        simp only [ne_eq, not_true_eq_false, false_iff]
        omega
    · split
      · split
        · next hsize =>
            simp only [ne_eq, not_true_eq_false, false_iff]
            omega
        · next hsize =>
            simp only [ne_eq, reduceCtorEq, not_false_eq_true, true_iff]
            omega
      · next hpos =>
          simp only [ne_eq, reduceCtorEq, not_false_eq_true, true_iff]
          omega

end StartKind

namespace Cpp.StreamReassembler

variable (r : StreamReassembler) (env : Surroundings) (req : List UInt8)

/-- `Handle` on an opening start, from the lock on, with the context it makes. -/
def install (id : Nat) (c : StreamContext) : StreamReassembler × Answer :=
  let r := r.pruneInternal env.pruneTime
  if count r.streams ≥ r.config.maxStreams then (r, .error)
  else if env.allocFails then (r, .error)
  else
    ({ r with streams := r.streams.insert id { c with startTime := env.startTime } }, .ack)

def openStream : StreamReassembler × Answer :=
  r.install env (parseStreamHeader req).streamId
    (openedContext req (env.newBuf (parseStreamHeader req).totalSize).toList)

theorem handleStart_eq :
    r.handleStart env req =
      match startKind r.config.maxStreamSize r.config.maxStreamChunks req with
      | .malformed => (r, .error)
      | .empty => (r, emptyAnswer req)
      | .opening => r.openStream env req := by
  simp only [handleStart, startKind, gt_iff_lt]
  split
  · rfl
  · split
    · rfl
    · split
      · split
        · rfl
        · rfl
      · rfl

theorem openStream_cases :
    ((r.config.maxStreams ≤ count (r.pruneInternal env.pruneTime).streams ∨
          env.allocFails = true) ∧
        r.openStream env req = (r.pruneInternal env.pruneTime, .error)) ∨
      ((count (r.pruneInternal env.pruneTime).streams < r.config.maxStreams ∧
          env.allocFails = false) ∧
        r.openStream env req = ({ r.pruneInternal env.pruneTime with
          streams := (r.pruneInternal env.pruneTime).streams.insert
            (parseStreamHeader req).streamId
            { openedContext req (env.newBuf (parseStreamHeader req).totalSize).toList with
              startTime := env.startTime } }, .ack)) := by
  have hconfig : (r.pruneInternal env.pruneTime).config = r.config := rfl
  simp only [openStream, install, hconfig]
  split
  · next hfull => exact Or.inl ⟨Or.inl hfull, rfl⟩
  · next hroom =>
      split
      · next halloc => exact Or.inl ⟨Or.inr halloc, rfl⟩
      · next halloc =>
          exact Or.inr ⟨⟨Nat.lt_of_not_le hroom, Bool.eq_false_iff.mpr halloc⟩, rfl⟩

end Cpp.StreamReassembler

namespace Go.Reassembler

variable (s : Reassembler) (env : Surroundings) (req : List UInt8)

def openStream : Reassembler :=
  (s.allocate (.new (parseStreamHeader req)
    (env.newBuf (parseStreamHeader req).totalSize).toList)).startSection env.now
      (parseStreamHeader req).streamId s.allocated

theorem handleStart_eq :
    s.handleStart env req =
      match startKind MaxStreamSize MaxStreamChunks req with
      | .malformed => (s, .error)
      | .empty => (s, emptyAnswer req)
      | .opening => (s.openStream env req, .ack) := by
  simp only [handleStart, startKind, gt_iff_lt, or_comm]
  split
  · rfl
  · split
    · rfl
    · split
      · split
        · rfl
        · rfl
      · rfl

section Allocate

variable {s} (c : GuestContext)

theorem markDead_allocate (refs : List Nat) (h : s.allocated ∉ refs) :
    (s.allocate c).markDead refs = (s.markDead refs).allocate c := by
  simp only [allocate, setContext, markDead]
  congr 1
  funext ref
  by_cases href : ref = s.allocated
  · subst href
    rw [if_neg h, Function.update_self, Function.update_self]
  · rw [Function.update_of_ne href, Function.update_of_ne href]

theorem prune_allocate (hq : Quiet s) (now : Int) :
    (s.allocate c).prune now = (s.prune now).allocate c := by
  have hexpired : ∀ ref, ref < s.allocated →
      (s.allocate c).isExpired now ref = s.isExpired now ref := by
    intro ref href
    simp only [isExpired, allocate, setContext, Function.update_of_ne (Nat.ne_of_lt href)]
    rfl
  have hbelow : ∀ e ∈ s.streams.entries, e.2 < s.allocated :=
    fun e he => hq.below e.1 e.2 (AList.mem_lookup_iff.mpr he)
  have hlist : (s.streams.entries.map Sigma.snd).filter ((s.allocate c).isExpired now) =
      (s.streams.entries.map Sigma.snd).filter (s.isExpired now) := by
    apply List.filter_congr
    intro ref href
    obtain ⟨e, he, rfl⟩ := List.mem_map.mp href
    exact hexpired e.2 (hbelow e he)
  have hkeep : keepIf (fun _ ref => !(s.allocate c).isExpired now ref) s.streams =
      keepIf (fun _ ref => !s.isExpired now ref) s.streams := by
    apply keepIf_congr
    intro id ref hlook
    rw [hexpired ref (hq.below id ref hlook)]
  have hunused : s.allocated ∉ (s.streams.entries.map Sigma.snd).filter (s.isExpired now) := by
    intro hmem
    obtain ⟨e, he, heq⟩ := List.mem_map.mp (List.mem_filter.mp hmem).1
    exact Nat.ne_of_lt (hbelow e he) heq
  by_cases htimeout : s.timeout > 0
  · simp only [prune, if_pos htimeout, if_pos (show (s.allocate c).timeout > 0 from htimeout),
      show (s.allocate c).streams = s.streams from rfl, hlist, hkeep,
      markDead_allocate c _ hunused]
    rfl
  · simp only [prune, if_neg htimeout, if_neg (show ¬ (s.allocate c).timeout > 0 from htimeout)]

theorem oldestID_allocate (hq : Quiet s) (id : Nat) :
    (s.allocate c).oldestID id = s.oldestID id := by
  simp only [oldestID]
  congr 1
  apply List.foldl_ext
  intro best e he
  have hne : e.2 ≠ s.allocated :=
    Nat.ne_of_lt (hq.below e.1 e.2 (AList.mem_lookup_iff.mpr he))
  have hseq : (s.allocate c).lastSeqOf e.2 = s.lastSeqOf e.2 := by
    simp only [lastSeqOf, allocate, setContext, Function.update_of_ne hne]
  rw [hseq]

theorem makeRoom_allocate (hq : Quiet s) (id : Nat) :
    (s.allocate c).makeRoom id = (s.makeRoom id).allocate c := by
  have hstreams : (s.allocate c).streams = s.streams := rfl
  simp only [makeRoom, hstreams]
  cases hlook : s.streams.lookup id with
  | some prev =>
    apply markDead_allocate
    intro hmem
    rw [List.mem_singleton] at hmem
    exact Nat.lt_irrefl _ (hmem ▸ hq.below id prev hlook)
  | none =>
    simp only
    split
    · simp only [evictOldest, hstreams]
      rw [oldestID_allocate c hq, markDead_allocate]
      · rfl
      · intro hmem
        exact Nat.lt_irrefl _ (hq.below _ _ (Option.mem_toList.mp hmem))
    · rfl

theorem quiet_prune (hq : Quiet s) (now : Int) : Quiet (s.prune now) where
  live := by
    intro id ref hlook
    have hshrinks := shrinksOff_prune (id + 1) s now
    rw [hshrinks.kept id ref (Nat.ne_of_lt (Nat.lt_succ_self id)) hlook]
    exact hq.live id ref (hshrinks.entry id ref hlook)
  distinct := (shrinksOff_prune 0 s now).injective hq.distinct
  below := by
    intro id ref hlook
    rw [(shrinksOff_prune 0 s now).allocated]
    exact hq.below id ref ((shrinksOff_prune 0 s now).entry id ref hlook)

theorem cleared_allocate (hq : Quiet s) (now : Int) (id : Nat) :
    (s.allocate c).cleared now id = (s.cleared now id).allocate c := by
  rw [cleared, prune_allocate c hq, makeRoom_allocate c (quiet_prune hq now), cleared]

theorem openStream_eq (env : Surroundings) (req : List UInt8) (hq : Quiet s) :
    s.openStream env req =
      { s.cleared env.now (parseStreamHeader req).streamId with
        seq := (s.seq + 1) % 2 ^ 64
        allocated := s.allocated + 1
        heap := Function.update (s.cleared env.now (parseStreamHeader req).streamId).heap
          s.allocated (some { GuestContext.new (parseStreamHeader req)
            (env.newBuf (parseStreamHeader req).totalSize).toList with
              lastSeq := (s.seq + 1) % 2 ^ 64, started := env.now })
        streams := (s.cleared env.now (parseStreamHeader req).streamId).streams.insert
          (parseStreamHeader req).streamId s.allocated } := by
  have hunused : ∀ i, s.streams.lookup i ≠ some s.allocated :=
    fun i hlook => Nat.lt_irrefl _ (hq.below i _ hlook)
  have hallocated : (s.cleared env.now (parseStreamHeader req).streamId).allocated =
      s.allocated :=
    (shrinksOff_makeRoom _ _ (quiet_prune hq env.now).distinct).allocated.trans
      (shrinksOff_prune 0 s env.now).allocated
  have hsection := startSection_eq (s.allocate (.new (parseStreamHeader req)
    (env.newBuf (parseStreamHeader req).totalSize).toList)) env.now
    (parseStreamHeader req).streamId s.allocated _ hq.distinct (Function.update_self _ _ _) hunused
  rw [openStream, hsection, cleared_allocate _ hq]
  simp only [allocate, setContext, hallocated, Function.update_idem]

end Allocate

/-- The context of a stream in the map, its flags and stamps included. -/
def contextOf (id : Nat) : Option GuestContext :=
  (s.streams.lookup id).bind s.heap

def nextSeq : Nat := (s.seq + 1) % 2 ^ 64

/-- The new stream, and the others as the start finds them when it installs its own. -/
theorem contextOf_openStream (hq : Quiet s) (id : Nat) :
    (s.openStream env req).contextOf id =
      if id = (parseStreamHeader req).streamId then
        some { GuestContext.new (parseStreamHeader req)
          (env.newBuf (parseStreamHeader req).totalSize).toList with
            lastSeq := s.nextSeq, started := env.now }
      else (s.cleared env.now (parseStreamHeader req).streamId).contextOf id := by
  rw [openStream_eq env req hq]
  simp only [contextOf, lookup_insert_eq]
  split
  · simp only [Option.bind_some, Function.update_self]
    rfl
  · cases hlook : (s.cleared env.now (parseStreamHeader req).streamId).streams.lookup id with
    | none => rfl
    | some ref =>
      have hroom := shrinksOff_makeRoom _ (parseStreamHeader req).streamId
        (quiet_prune hq env.now).distinct
      have hne : ref ≠ s.allocated := Nat.ne_of_lt
        (hq.below id ref ((shrinksOff_prune 0 s env.now).entry id ref (hroom.entry id ref hlook)))
      simp only [Option.bind_some, Function.update_of_ne hne]

theorem inFlight_eq_contextOf (id : Nat) :
    s.inFlight id = (s.contextOf id).map GuestContext.toStreamContext := by
  simp only [inFlight, contextOf]
  cases s.streams.lookup id with
  | none => rfl
  | some ref => rfl

theorem inFlight_openStream (hq : Quiet s) :
    (s.openStream env req).inFlight =
      Function.update (s.cleared env.now (parseStreamHeader req).streamId).inFlight
        (parseStreamHeader req).streamId
        (some (openedContext req (env.newBuf (parseStreamHeader req).totalSize).toList)) := by
  funext i
  rw [inFlight_eq_contextOf, contextOf_openStream s env req hq, Function.update_apply]
  split
  · rfl
  · exact (inFlight_eq_contextOf _ i).symm

/-- A start for a live stream removes nobody: it marks the context it replaces. -/
theorem cleared_of_live (hq : Quiet s) (now : Int) (id : Nat)
    (hlive : ((s.prune now).inFlight id).isSome = true) :
    (s.cleared now id).streams = (s.prune now).streams ∧
      (∃ ref, (s.prune now).streams.lookup id = some ref) ∧
      ∀ i, i ≠ id → (s.cleared now id).contextOf i = (s.prune now).contextOf i := by
  cases hlook : (s.prune now).streams.lookup id with
  | none =>
    simp only [inFlight, hlook, Option.bind_none] at hlive
    cases hlive
  | some ref =>
    have hkept := shrinksOff_makeRoom (s.prune now) id (quiet_prune hq now).distinct
    have hstreams : (s.cleared now id).streams = (s.prune now).streams := by
      simp only [cleared, makeRoom, hlook]
      rfl
    refine ⟨hstreams, ⟨ref, rfl⟩, fun i hi => ?_⟩
    simp only [contextOf, hstreams]
    cases hi' : (s.prune now).streams.lookup i with
    | none => rfl
    | some ref' => exact hkept.kept i ref' hi (hstreams ▸ hi')

end Go.Reassembler

section Acceptance

theorem delivery_msgType {v w : InFlight} {x : Exchange} (h : Step v x w) (d : Delivery)
    (hd : x.delivery = some d) : x.msgType = .streamStart ∨ x.msgType = .streamChunk := by
  cases h with
  | ignored | refused => cases hd
  | empty | opened => exact Or.inl rfl
  | repeated | accepted | completed => exact Or.inr rfl

theorem delivery_msgType_of_history {v : InFlight} {t : List Exchange} (h : History v t) :
    ∀ x ∈ t, ∀ d, x.delivery = some d →
      x.msgType = .streamStart ∨ x.msgType = .streamChunk := by
  induction h with
  | start => simp
  | exchange v w t x _ hx ih =>
    intro y hy
    cases List.mem_append.mp hy with
    | inl hold => exact ih y hold
    | inr hnew =>
      rw [List.mem_singleton.mp hnew]
      exact delivery_msgType hx
  | discard v w t _ _ ih => exact ih

end Acceptance

namespace Cpp.StreamReassembler

variable (r : StreamReassembler)

theorem startKind_of_normal (env : Surroundings) (req : List UInt8)
    (h : (r.handleStart env req).2.reply = .normal) :
    startKind r.config.maxStreamSize r.config.maxStreamChunks req ≠ .malformed := by
  intro hkind
  rw [handleStart_eq, hkind] at h
  cases h

theorem handleStart_normal_iff (env : Surroundings) (req : List UInt8)
    (hroom : count (r.pruneInternal env.pruneTime).streams < r.config.maxStreams)
    (halloc : env.allocFails = false) :
    (r.handleStart env req).2.reply = .normal ↔
      startKind r.config.maxStreamSize r.config.maxStreamChunks req ≠ .malformed := by
  rw [handleStart_eq]
  cases startKind r.config.maxStreamSize r.config.maxStreamChunks req with
  | malformed => simp [Answer.error]
  | empty => simp [emptyAnswer]
  | opening =>
    cases r.openStream_cases env req with
    | inl hrefused =>
      cases hrefused.1 with
      | inl hfull => omega
      | inr hfails => rw [halloc] at hfails; cases hfails
    | inr hopened => simp [hopened.2, Answer.ack]

theorem config_apply (e : Event) (hsize : r.config.maxStreamSize ≤ 2 ^ 30) :
    (r.apply e).1.config = r.config := by
  cases e with
  | message env m req => exact (handle_step r env m req hsize).2
  | prune now => rfl

end Cpp.StreamReassembler

namespace Go.Reassembler

variable (s : Reassembler)

theorem handleStart_normal_iff (env : Surroundings) (req : List UInt8) :
    (s.handleStart env req).2.reply = .normal ↔
      startKind (2 ^ 30) (2 ^ 20) req ≠ .malformed := by
  rw [handleStart_eq, MaxStreamSize, MaxStreamChunks]
  cases startKind (2 ^ 30) (2 ^ 20) req with
  | malformed => simp [Answer.error]
  | empty => simp [emptyAnswer]
  | opening => simp [Answer.ack]

end Go.Reassembler

section Restart

variable (req : List UInt8)

/-- The host takes the start `req` as a restart: a fresh context stands under its id, and
every other context that has not expired is there as it was. -/
structure Cpp.StreamReassembler.Restarts (r : StreamReassembler) (env : Surroundings) :
    Prop where
  accepted : (r.handle env .streamStart req).2.map Answer.reply = some .normal
  context : (r.handle env .streamStart req).1.streams.lookup (parseStreamHeader req).streamId =
    some { openedContext req (env.newBuf (parseStreamHeader req).totalSize).toList with
      startTime := env.startTime }
  others : ∀ id, id ≠ (parseStreamHeader req).streamId →
    (r.handle env .streamStart req).1.streams.lookup id =
      (r.pruneInternal env.pruneTime).streams.lookup id
  count_eq : count (r.handle env .streamStart req).1.streams =
    count (r.pruneInternal env.pruneTime).streams

/-- The same of the guest, whose fresh context is neither done nor dead. -/
structure Go.Reassembler.Restarts (s : Reassembler) (env : Surroundings) : Prop where
  accepted : (s.handler env .streamStart req).2.map Answer.reply = some .normal
  context : (s.handler env .streamStart req).1.contextOf (parseStreamHeader req).streamId =
    some {
      openedContext req (env.newBuf (parseStreamHeader req).totalSize).toList with
      done := false
      dead := false
      lastSeq := s.nextSeq
      started := env.now }
  others : ∀ id, id ≠ (parseStreamHeader req).streamId →
    (s.handler env .streamStart req).1.contextOf id = (s.prune env.now).contextOf id
  count_eq : count (s.handler env .streamStart req).1.streams = count (s.prune env.now).streams

variable {req}

theorem Cpp.StreamReassembler.restarts_iff (r : StreamReassembler) (env : Surroundings)
    (hkind : startKind r.config.maxStreamSize r.config.maxStreamChunks req = .opening)
    (hlive : ((r.pruneInternal env.pruneTime).inFlight
      (parseStreamHeader req).streamId).isSome = true) :
    r.Restarts req env ↔
      count (r.pruneInternal env.pruneTime).streams < r.config.maxStreams ∧
        env.allocFails = false := by
  have hhandle : r.handle env .streamStart req =
      ((r.openStream env req).1, some (r.openStream env req).2) := by
    simp only [handle, handleStart_eq, hkind]
  cases r.openStream_cases env req with
  | inl hrefused =>
    constructor
    · intro h
      have haccepted := h.accepted
      rw [hhandle, hrefused.2] at haccepted
      cases haccepted
    · intro h
      cases hrefused.1 with
      | inl hfull => omega
      | inr hfails => rw [h.2] at hfails; cases hfails
  | inr hopened =>
    refine ⟨fun _ => hopened.1, fun _ => ?_⟩
    obtain ⟨ctx, hctx⟩ := Option.isSome_iff_exists.mp hlive
    obtain ⟨old, hold, -⟩ := Option.map_eq_some_iff.mp hctx
    constructor
    · rw [hhandle, hopened.2]
      rfl
    · rw [hhandle, hopened.2, lookup_insert_eq, if_pos rfl]
    · intro id hid
      rw [hhandle, hopened.2, lookup_insert_eq, if_neg hid]
    · rw [hhandle, hopened.2]
      exact count_insert_of_lookup hold _

theorem Go.Reassembler.restarts (s : Reassembler) (env : Surroundings) (hq : s.Quiet)
    (hkind : startKind MaxStreamSize MaxStreamChunks req = .opening)
    (hlive : ((s.prune env.now).inFlight (parseStreamHeader req).streamId).isSome = true) :
    s.Restarts req env := by
  have hhandle : s.handler env .streamStart req = (s.openStream env req, some .ack) := by
    simp only [handler, handleStart_eq, hkind]
  obtain ⟨hstreams, ⟨ref, hlook⟩, hothers⟩ := s.cleared_of_live hq env.now _ hlive
  constructor
  · rw [hhandle]
    rfl
  · rw [hhandle, contextOf_openStream s env req hq, if_pos rfl]
    rfl
  · intro id hid
    rw [hhandle, contextOf_openStream s env req hq, if_neg hid]
    exact hothers id hid
  · rw [hhandle, openStream_eq env req hq, hstreams]
    exact count_insert_of_lookup hlook _

end Restart

/-- A live stream can always be restarted on the guest. On the host it can exactly when
the streams in flight, the restarted one included, leave room for another. -/
theorem restart_needs_room_iff (cfg : Cpp.StreamReassemblerConfig) (hostEvents : List Cpp.Event)
    (timeout : Int) (guestEvents : List Go.Event) (req : List UInt8) :
    (∀ (env : Cpp.Surroundings),
      startKind cfg.clamp.maxStreamSize cfg.clamp.maxStreamChunks req = .opening →
      ((((Cpp.StreamReassembler.construct cfg).run hostEvents).1.pruneInternal
        env.pruneTime).inFlight (parseStreamHeader req).streamId).isSome = true →
      (((Cpp.StreamReassembler.construct cfg).run hostEvents).1.Restarts req env ↔
        count (((Cpp.StreamReassembler.construct cfg).run hostEvents).1.pruneInternal
          env.pruneTime).streams < cfg.clamp.maxStreams ∧ env.allocFails = false)) ∧
    ∀ (env : Go.Surroundings),
      startKind Go.MaxStreamSize Go.MaxStreamChunks req = .opening →
      ((((Go.Reassembler.new timeout).run guestEvents).1.prune env.now).inFlight
        (parseStreamHeader req).streamId).isSome = true →
      ((Go.Reassembler.new timeout).run guestEvents).1.Restarts req env := by
  constructor
  · intro env hkind hlive
    obtain ⟨-, hconfig⟩ := Cpp.StreamReassembler.history_run cfg hostEvents
    rw [← hconfig] at hkind ⊢
    exact Cpp.StreamReassembler.restarts_iff _ env hkind hlive
  · intro env hkind hlive
    obtain ⟨-, hquiet⟩ := Go.Reassembler.history_run timeout guestEvents
    exact Go.Reassembler.restarts _ env hquiet hkind hlive

theorem restart_twoBlocks :
    ((Cpp.StreamReassembler.construct {}).run
      [.message zeroHost .streamStart twoBlocksStart]).1.Restarts twoBlocksStart zeroHost ∧
    ((Go.Reassembler.new 0).run
      [⟨zeroGuest, .streamStart, twoBlocksStart⟩]).1.Restarts twoBlocksStart zeroGuest := by
  obtain ⟨hhost, hguest⟩ := restart_needs_room_iff {}
    [.message zeroHost .streamStart twoBlocksStart] 0
    [⟨zeroGuest, .streamStart, twoBlocksStart⟩] twoBlocksStart
  exact ⟨(hhost zeroHost (by decide) (by decide)).mpr ⟨by decide, rfl⟩,
    hguest zeroGuest (by decide) (by decide)⟩

/-- One stream allowed and in flight: its own restart finds no room. -/
theorem restart_refused_when_full :
    ((((Cpp.StreamReassembler.construct { maxStreams := 1 }).run
        [.message zeroHost .streamStart twoBlocksStart]).1.pruneInternal
          zeroHost.pruneTime).inFlight (parseStreamHeader twoBlocksStart).streamId).isSome = true ∧
    startKind Cpp.kMaxStreamSize (2 ^ 20) twoBlocksStart = .opening ∧
    (((Cpp.StreamReassembler.construct { maxStreams := 1 }).run
        [.message zeroHost .streamStart twoBlocksStart]).1.handle zeroHost
          .streamStart twoBlocksStart).2 = some .error := by
  refine ⟨by decide, by decide, by decide⟩

end ShmIpc.Stream
