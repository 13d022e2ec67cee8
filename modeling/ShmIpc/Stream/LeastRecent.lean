import ShmIpc.Library.Recency
import ShmIpc.Stream.Isolation

/-!
The eviction of the Go reassembler against the history of its messages. With the age prune
off and one handler call at a time, the stamp of a stream in the map is its place in the
log of activities, so the scan for the smallest stamp finds the stream that has been
inactive for longest. This holds until the counter behind the stamps has wrapped.

Go visits the entries of a map in any order: a step may reorder them between two calls.
-/

namespace ShmIpc.Stream.Go
open Library

inductive CallAction
  | call (e : Event)
  | reorder (streams : Assoc Nat Nat)

namespace Reassembler

/-- The stream that is active with a message: an opening start, or a chunk with a valid
index of a stream in flight. -/
def activity (s : Reassembler) (e : Event) : Option Nat :=
  match e.msgType with
  | .streamStart =>
    if startKind MaxStreamSize MaxStreamChunks e.req = .opening then some (messageStream e.req)
    else none
  | .streamChunk =>
    match s.inFlight (messageStream e.req) with
    | none => none
    | some c =>
      if chunkHeaderSize + (parseChunkHeader e.req).payloadSize ≤ e.req.length ∧
          (parseChunkHeader e.req).chunkIndex < c.totalChunks then
        some (messageStream e.req)
      else none
  | _ => none

/-- The handler on an event, one call at a time. -/
def afterCall (s : Reassembler) (e : Event) : Reassembler :=
  (s.handler e.env e.msgType e.req).1

theorem afterCall_start (s : Reassembler) (env : Surroundings) (req : List UInt8) :
    s.afterCall ⟨env, .streamStart, req⟩ = (s.handleStart env req).1 := rfl

theorem afterCall_chunk (s : Reassembler) (env : Surroundings) (req : List UInt8) :
    s.afterCall ⟨env, .streamChunk, req⟩ = (s.handleChunk req).1 := rfl

def callOrReorder (s : Reassembler) : CallAction → Option Reassembler
  | .call e => some (s.afterCall e)
  | .reorder streams =>
    if streams.entries.Perm s.streams.entries then some { s with streams := streams } else none

/-- The log of activities, the latest first. -/
def recordActivity (s : Reassembler) (a : CallAction) (_ : Reassembler) (log : List Nat) :
    List Nat :=
  match a with
  | .call e => (s.activity e).toList ++ log
  | .reorder _ => log

def runLogged : Reassembler × List Nat → CallAction → Option (Reassembler × List Nat) :=
  recorded callOrReorder recordActivity

/-- Streams carry as a stamp their place in the log, and the map is within its bound. -/
structure Recent (s : Reassembler) (log : List Nat) : Prop where
  quiet : s.Quiet
  pruneOff : s.timeout ≤ 0
  seq : s.seq = log.length % 2 ^ 64
  stamped : log.length < 2 ^ 64 → ∀ id ref, s.streams.lookup id = some ref →
    id ∈ log ∧ s.lastSeqOf ref = stamp log id
  room : log.length < 2 ^ 64 → count s.streams ≤ MaxConcurrentStreams

section Start

variable {s : Reassembler} {log : List Nat} {id : Nat}

theorem prune_off (h : s.timeout ≤ 0) (now : Int) : s.prune now = s := by
  rw [prune, if_neg (Int.not_lt.mpr h)]

theorem cleared_of_pruneOff (h : s.timeout ≤ 0) (now : Int) (id : Nat) :
    s.cleared now id = s.makeRoom id := by
  rw [cleared, prune_off h]

theorem Recent.oldest (h : Recent s log) (hlen : log.length < 2 ^ 64)
    (hfull : MaxConcurrentStreams ≤ count s.streams) (id : Nat) :
    (∃ ref, s.streams.lookup (s.oldestID id) = some ref) ∧
      ∀ other ref, s.streams.lookup other = some ref → other ≠ s.oldestID id →
        stamp log (s.oldestID id) < stamp log other := by
  have hstamped : ∀ e ∈ s.streams.entries, e.1 ∈ log ∧ s.lastSeqOf e.2 = stamp log e.1 :=
    fun e he => h.stamped hlen e.1 e.2 (AList.mem_lookup_iff.mpr he)
  obtain ⟨hfinal, -, hall⟩ := scan_spec s.lastSeqOf s.streams.entries (id, 2 ^ 64 - 1)
  cases hfinal with
  | inl heq =>
    obtain ⟨e, e', rest, hentries⟩ : ∃ e e' rest, s.streams.entries = e :: e' :: rest := by
      cases hentries : s.streams.entries with
      | nil =>
        rw [count, hentries] at hfull
        exact absurd hfull (by decide)
      | cons e tail =>
        cases tail with
        | nil =>
          rw [count, hentries] at hfull
          exact absurd hfull (by decide : ¬ MaxConcurrentStreams ≤ 1)
        | cons e' rest => exact ⟨e, e', rest, rfl⟩
    have hmem : e ∈ s.streams.entries := hentries ▸ List.mem_cons_self
    have hmem' : e' ∈ s.streams.entries :=
      hentries ▸ List.mem_cons_of_mem e List.mem_cons_self
    have hne : e.1 ≠ e'.1 := by
      have hnodup := s.streams.nodupKeys
      rw [hentries, List.nodupKeys_cons] at hnodup
      intro hkey
      exact hnodup.1 (List.mem_keys.mpr ⟨e'.2, hkey ▸ List.mem_cons_self⟩)
    have hle : 2 ^ 64 - 1 ≤ stamp log e.1 := by
      have hbest := hall e hmem
      rw [heq, (hstamped e hmem).2] at hbest
      exact hbest
    have hle' : 2 ^ 64 - 1 ≤ stamp log e'.1 := by
      have hbest := hall e' hmem'
      rw [heq, (hstamped e' hmem').2] at hbest
      exact hbest
    have hsame : stamp log e.1 = stamp log e'.1 := by
      have hmax := stamp_le_length log e.1
      have hmax' := stamp_le_length log e'.1
      omega
    exact absurd (eq_of_stamp_eq (hstamped e hmem).1 hsame) hne
  | inr hmin =>
    obtain ⟨e, he, heq⟩ := hmin
    have hid : s.oldestID id = e.1 := by rw [oldestID, heq]
    rw [hid]
    refine ⟨⟨e.2, AList.mem_lookup_iff.mpr he⟩, ?_⟩
    intro other ref hlook hother
    obtain ⟨hmem, hseq⟩ := h.stamped hlen other ref hlook
    have hle := hall ⟨other, ref⟩ (AList.mem_lookup_iff.mp hlook)
    rw [heq, (hstamped e he).2, hseq] at hle
    refine Nat.lt_of_le_of_ne hle fun hsame => hother ?_
    exact eq_of_stamp_eq hmem hsame.symm

theorem lastSeqOf_makeRoom (s : Reassembler) (id ref : Nat) :
    (s.makeRoom id).lastSeqOf ref = s.lastSeqOf ref := by
  cases heap_makeRoom s id ref with
  | inl hsame => simp only [lastSeqOf, hsame]
  | inr hburied =>
    simp only [lastSeqOf, hburied.2]
    cases s.heap ref with
    | none => rfl
    | some c => rfl

theorem Recent.active {s' : Reassembler} (h : Recent s log) (hquiet : s'.Quiet)
    (htimeout : s'.timeout = s.timeout) (hseq : s'.seq = s.nextSeq)
    (hself : ∀ ref, s'.streams.lookup id = some ref → s'.lastSeqOf ref = s.nextSeq)
    (hother : ∀ i ref, i ≠ id → s'.streams.lookup i = some ref →
      s.streams.lookup i = some ref ∧ s'.lastSeqOf ref = s.lastSeqOf ref)
    (hroom : log.length + 1 < 2 ^ 64 → count s'.streams ≤ MaxConcurrentStreams) :
    Recent s' (id :: log) where
  quiet := hquiet
  pruneOff := htimeout ▸ h.pruneOff
  seq := by rw [hseq, nextSeq, h.seq, Nat.mod_add_mod, List.length_cons]
  stamped := by
    intro hlen i ref hlook
    rw [List.length_cons] at hlen
    rw [stamp_cons]
    by_cases hi : i = id
    · subst hi
      refine ⟨List.mem_cons_self, ?_⟩
      rw [if_pos rfl, hself ref hlook, nextSeq, h.seq, Nat.mod_add_mod, Nat.mod_eq_of_lt hlen]
    · obtain ⟨hold, hsame⟩ := hother i ref hi hlook
      obtain ⟨hmem, hstamp⟩ := h.stamped (by omega) i ref hold
      exact ⟨List.mem_cons_of_mem id hmem, by rw [if_neg hi, hsame, hstamp]⟩
  room := hroom

theorem timeout_makeRoom (s : Reassembler) (id : Nat) : (s.makeRoom id).timeout = s.timeout := by
  unfold makeRoom
  split
  · rfl
  · split
    · rfl
    · rfl

theorem Recent.streams_openStream (h : Recent s log) (env : Surroundings) (req : List UInt8) :
    (s.openStream env req).streams =
      (s.makeRoom (messageStream req)).streams.insert (messageStream req) s.allocated := by
  rw [openStream_eq env req h.quiet, cleared_of_pruneOff h.pruneOff]
  rfl

theorem Recent.openStream (h : Recent s log) (env : Surroundings) (req : List UInt8)
    (hquiet : (s.openStream env req).Quiet) :
    Recent (s.openStream env req) (messageStream req :: log) := by
  have heq := openStream_eq env req h.quiet
  rw [cleared_of_pruneOff h.pruneOff] at heq
  have hstreams := h.streams_openStream env req
  refine h.active hquiet ?_ ?_ ?_ ?_ ?_
  · rw [heq]
    exact timeout_makeRoom s _
  · rw [heq]
    rfl
  · intro ref hlook
    rw [hstreams, lookup_insert_eq, if_pos rfl] at hlook
    cases hlook
    rw [heq]
    simp only [lastSeqOf, Function.update_self]
    rfl
  · intro i ref hi hlook
    rw [hstreams, lookup_insert_eq, if_neg hi] at hlook
    have hold := (shrinksOff_makeRoom s (messageStream req) h.quiet.distinct).entry i ref hlook
    have hne : ref ≠ s.allocated := Nat.ne_of_lt (h.quiet.below i ref hold)
    refine ⟨hold, ?_⟩
    rw [← lastSeqOf_makeRoom s (messageStream req) ref, heq]
    simp only [lastSeqOf, Function.update_of_ne hne]
    rfl
  · intro hlen
    rw [hstreams]
    refine count_makeRoom_insert s _ _ (h.room (by omega)) ?_
    intro i ref hlook
    rw [(h.stamped (by omega) i ref hlook).2]
    have hmax := stamp_le_length log i
    omega

end Start

section Chunk

variable {s : Reassembler} {log : List Nat} {req : List UInt8}

/-- A chunk call that finds its stream stamps it, and may take it out of the map. -/
structure Touched (s s' : Reassembler) (id : Nat) : Prop where
  timeout : s'.timeout = s.timeout
  seq : s'.seq = s.nextSeq
  streams : s'.streams = s.streams ∨ s'.streams = s.streams.erase id
  self : ∀ ref, s.streams.lookup id = some ref → s'.lastSeqOf ref = s.nextSeq
  other : ∀ i ref, i ≠ id → s.streams.lookup i = some ref → s'.lastSeqOf ref = s.lastSeqOf ref

theorem touched_setContext (hq : s.Quiet) {id ref : Nat} {c : GuestContext}
    (hlook : s.streams.lookup id = some ref) (hc : c.lastSeq = s.nextSeq)
    (streams : Assoc Nat Nat) (hstreams : streams = s.streams ∨ streams = s.streams.erase id)
    (t : Reassembler) (ht : t.timeout = s.timeout) (hseq : t.seq = s.nextSeq)
    (hheap : ∀ r, r ≠ ref → t.heap r = s.heap r) (hself : t.heap ref = some c)
    (hmap : t.streams = streams) : Touched s t id where
  timeout := ht
  seq := hseq
  streams := hmap ▸ hstreams
  self := by
    intro r hr
    rw [hlook] at hr
    cases hr
    simp only [lastSeqOf, hself, hc]
  other := by
    intro i r hi hr
    have hne : r ≠ ref := fun heq => hi (hq.distinct i id ref (heq ▸ hr) hlook)
    simp only [lastSeqOf, hheap r hne]

theorem touched_handleChunk (hq : s.Quiet) {ref : Nat} {c : GuestContext}
    (hlen : chunkHeaderSize + (parseChunkHeader req).payloadSize ≤ req.length)
    (hlook : s.streams.lookup (messageStream req) = some ref) (hheap : s.heap ref = some c)
    (hindex : (parseChunkHeader req).chunkIndex < c.totalChunks) :
    Touched s (s.handleChunk req).1 (messageStream req) := by
  rw [handleChunk_placed hq hlen hlook hheap hindex]
  have hothers : ∀ d r, r ≠ ref → ((s.touch ref c).setContext ref d).heap r = s.heap r := by
    intro d r hr
    simp only [touch, setContext, Function.update_of_ne hr]
  have hself : ∀ d, ((s.touch ref c).setContext ref d).heap ref = some d :=
    fun d => Function.update_self _ _ _
  cases c.toStreamContext.consume MaxParkedChunks false (parseChunkHeader req).chunkIndex
      (parseChunkHeader req).dstOffset (chunkPayload req) with
  | mk d outcome =>
    cases outcome with
    | duplicate =>
      exact touched_setContext hq hlook rfl _ (Or.inl rfl) _ rfl rfl
        (fun r hr => Function.update_of_ne hr _ _) (Function.update_self _ _ _) rfl
    | accepted =>
      exact touched_setContext hq hlook rfl _ (Or.inl rfl) _ rfl rfl (hothers _) (hself _) rfl
    | corrupt | complete data =>
      exact touched_setContext hq hlook rfl _ (Or.inr rfl) _ rfl rfl (hothers _) (hself _) rfl

theorem Recent.touched {s' : Reassembler} {id : Nat} (h : Recent s log) (hquiet : s'.Quiet)
    (ht : Touched s s' id) : Recent s' (id :: log) := by
  have hentry : ∀ i ref, s'.streams.lookup i = some ref → s.streams.lookup i = some ref := by
    intro i ref hlook
    cases ht.streams with
    | inl hsame => exact hsame ▸ hlook
    | inr herase =>
      rw [herase, lookup_erase_eq] at hlook
      split at hlook
      · cases hlook
      · exact hlook
  refine h.active hquiet ht.timeout ht.seq (fun ref hlook => ht.self ref (hentry id ref hlook))
    (fun i ref hi hlook => ⟨hentry i ref hlook, ht.other i ref hi (hentry i ref hlook)⟩) ?_
  intro hlen
  have hroom := h.room (by omega)
  cases ht.streams with
  | inl hsame => rw [hsame]; exact hroom
  | inr herase => rw [herase]; exact (count_erase_le _ _).trans hroom

theorem activity_of_unplaced {e : Event} (htype : e.msgType = .streamChunk)
    (h : Unplaced s.inFlight e.req) : s.activity e = none := by
  simp only [activity, htype]
  cases hc : s.inFlight (messageStream e.req) with
  | none => rfl
  | some c =>
    refine if_neg fun hplaced => ?_
    cases h with
    | inl hcut => exact Nat.not_le.mpr hcut hplaced.1
    | inr hindex => exact Nat.not_lt.mpr (hindex c hc) hplaced.2

theorem activity_of_placed {e : Event} (htype : e.msgType = .streamChunk) {ref : Nat}
    {c : GuestContext}
    (hlen : chunkHeaderSize + (parseChunkHeader e.req).payloadSize ≤ e.req.length)
    (hlook : s.streams.lookup (messageStream e.req) = some ref) (hheap : s.heap ref = some c)
    (hindex : (parseChunkHeader e.req).chunkIndex < c.totalChunks) :
    s.activity e = some (messageStream e.req) := by
  have hc : s.inFlight (messageStream e.req) = some c.toStreamContext := by
    simp only [inFlight, hlook, Option.bind_some, hheap, Option.map_some]
  simp only [activity, htype, hc]
  exact if_pos ⟨hlen, hindex⟩

end Chunk

section Calls

variable {s : Reassembler} {log : List Nat}

/-- One call: nothing happens, or a stream is opened, or a chunk finds its stream. -/
inductive CallCase (s : Reassembler) (e : Event) : Prop
  | idle (hactivity : s.activity e = none) (hcall : s.afterCall e = s)
  | opening (hactivity : s.activity e = some (messageStream e.req))
      (htype : e.msgType = .streamStart)
      (hkind : startKind MaxStreamSize MaxStreamChunks e.req = .opening)
      (hcall : s.afterCall e = s.openStream e.env e.req)
  | chunk (hactivity : s.activity e = some (messageStream e.req))
      (htype : e.msgType = .streamChunk)
      (htouched : Touched s (s.afterCall e) (messageStream e.req))

theorem callCase (hq : s.Quiet) (e : Event) : CallCase s e := by
  cases htype : e.msgType with
  | streamStart =>
    have hcall : s.afterCall e = (s.handleStart e.env e.req).1 := by
      rw [← afterCall_start, ← htype]
    rw [handleStart_eq] at hcall
    cases hkind : startKind MaxStreamSize MaxStreamChunks e.req with
    | malformed | empty =>
      refine .idle ?_ ?_
      · simp only [activity, htype, hkind, reduceCtorEq, if_false]
      · rw [hcall, hkind]
    | opening =>
      refine .opening ?_ htype hkind ?_
      · simp only [activity, htype, hkind, if_true]
      · rw [hcall, hkind]
  | streamChunk =>
    have hcall : s.afterCall e = (s.handleChunk e.req).1 := by
      rw [← s.afterCall_chunk e.env, ← htype]
    by_cases hunplaced : Unplaced s.inFlight e.req
    · refine .idle (activity_of_unplaced htype hunplaced) ?_
      rw [hcall, handleChunk_unplaced hq hunplaced]
    · obtain ⟨hlen, ref, c, hlook, hheap, hindex⟩ := exists_placed hq hunplaced
      refine .chunk (activity_of_placed htype hlen hlook hheap hindex) htype ?_
      rw [hcall]
      exact touched_handleChunk hq hlen hlook hheap hindex
  | normal | heartbeatReq | heartbeatResp | shutdown | flatbuffer | guestCall | systemError
  | other =>
    refine .idle ?_ ?_
    · simp only [activity, htype]
    · rw [afterCall, htype]
      rfl

theorem Recent.call (h : Recent s log) (e : Event) :
    Recent (s.afterCall e) ((s.activity e).toList ++ log) := by
  have hquiet : (s.afterCall e).Quiet := (handler_step s e.env e.msgType e.req h.quiet).2
  cases callCase h.quiet e with
  | idle hactivity hcall =>
    rw [hactivity, hcall]
    exact h
  | opening hactivity htype hkind hcall =>
    rw [hactivity, hcall]
    exact h.openStream e.env e.req (hcall ▸ hquiet)
  | chunk hactivity htype htouched =>
    rw [hactivity]
    exact h.touched hquiet htouched

theorem Recent.reorder (h : Recent s log) {streams : Assoc Nat Nat}
    (hperm : streams.entries.Perm s.streams.entries) :
    Recent { s with streams := streams } log := by
  have hlookup : ∀ id, streams.lookup id = s.streams.lookup id :=
    fun id => AList.perm_lookup hperm
  refine ⟨⟨?_, ?_, ?_⟩, h.pruneOff, h.seq, ?_, ?_⟩
  · intro id ref hlook
    exact h.quiet.live id ref (hlookup id ▸ hlook)
  · intro id id' ref hlook hlook'
    exact h.quiet.distinct id id' ref (hlookup id ▸ hlook) (hlookup id' ▸ hlook')
  · intro id ref hlook
    exact h.quiet.below id ref (hlookup id ▸ hlook)
  · intro hlen id ref hlook
    exact h.stamped hlen id ref (hlookup id ▸ hlook)
  · intro hlen
    exact (List.Perm.length_eq hperm).trans_le (h.room hlen)

theorem recent_reachable {timeout : Int} (htimeout : timeout ≤ 0)
    {p : Reassembler × List Nat}
    (hr : Reachable runLogged (fun _ _ => True) (.new timeout, []) p) : Recent p.1 p.2 := by
  refine hr.recorded_invariant Recent ?_ ?_
  · refine ⟨quiet_new timeout, htimeout, rfl, ?_, fun _ => Nat.zero_le _⟩
    intro _ id ref hlook
    cases hlook
  · intro s log a s' hq _ hcall
    cases a with
    | call e =>
      rw [callOrReorder, Option.some.injEq] at hcall
      rw [← hcall]
      exact hq.call e
    | reorder streams =>
      simp only [callOrReorder] at hcall
      split at hcall
      case isTrue hperm =>
        rw [Option.some.injEq] at hcall
        rw [← hcall]
        exact hq.reorder hperm
      · cases hcall

end Calls

/-- A start of `id` finds the map full of other streams, of which `old` has been inactive
for longest: all others have been active since it was, and with `id` there are as many as
the map holds. -/
structure Evicts (s : Reassembler) (log : List Nat) (id old : Nat) : Prop where
  new : s.streams.lookup id = none
  full : count s.streams = MaxConcurrentStreams
  inFlight : s.streams.lookup old ≠ none
  oldest : ∀ other, other ≠ old → s.streams.lookup other ≠ none → other ∈ since log old
  active : MaxConcurrentStreams ≤ (since (id :: log) old).toFinset.card

/-- Among the streams other than `id`, a message removes `old` and no other. -/
def Removes (s s' : Reassembler) (id old : Nat) : Prop :=
  old ≠ id ∧ s'.streams.lookup old = none ∧
    ∀ other, other ≠ id → other ≠ old → s'.streams.lookup other = s.streams.lookup other

section Evictions

variable {s : Reassembler} {log : List Nat}

theorem Recent.evicts (h : Recent s log) (hlen : log.length < 2 ^ 64) {id : Nat}
    (hnew : s.streams.lookup id = none) (hfull : MaxConcurrentStreams ≤ count s.streams) :
    Evicts s log id (s.oldestID id) := by
  obtain ⟨⟨ref, href⟩, hmin⟩ := h.oldest hlen hfull id
  have hold : s.streams.lookup (s.oldestID id) ≠ none := by
    rw [href]
    exact Option.some_ne_none ref
  have holdest : ∀ other, other ≠ s.oldestID id → s.streams.lookup other ≠ none →
      other ∈ since log (s.oldestID id) := by
    intro other hother hin
    obtain ⟨r, hr⟩ := Option.ne_none_iff_exists'.mp hin
    exact mem_since_of_stamp_lt (hmin other r hr hother)
  refine ⟨hnew, Nat.le_antisymm (h.room hlen) hfull, hold, holdest, ?_⟩
  have hkeys : s.streams.keys.toFinset.card = count s.streams := by
    rw [List.toFinset_card_of_nodup s.streams.keys_nodup, count]
    exact List.length_map _
  have hmem : s.oldestID id ∈ s.streams.keys.toFinset :=
    List.mem_toFinset.mpr (AList.mem_keys.mpr (AList.lookup_isSome.mp (by rw [href]; rfl)))
  have hothers : ∀ z ∈ s.streams.keys.toFinset.erase (s.oldestID id),
      z ∈ since log (s.oldestID id) := by
    intro z hz
    obtain ⟨hne, hz⟩ := Finset.mem_erase.mp hz
    refine holdest z hne ?_
    rw [ne_eq, AList.lookup_eq_none, not_not]
    exact AList.mem_keys.mp (List.mem_toFinset.mp hz)
  have hnotMem : id ∉ s.streams.keys.toFinset.erase (s.oldestID id) := by
    intro hid
    have hin := List.mem_toFinset.mp (Finset.mem_erase.mp hid).2
    exact AList.lookup_eq_none.mp hnew (AList.mem_keys.mp hin)
  have hne : s.oldestID id ≠ id := by
    intro heq
    rw [heq] at hold
    exact hold hnew
  have hcard := card_lt_since hothers hnotMem hne
  rw [Finset.card_erase_of_mem hmem, hkeys] at hcard
  have hpos : 0 < MaxConcurrentStreams := by decide
  omega

theorem Recent.lookup_openStream (h : Recent s log) (env : Surroundings) (req : List UInt8)
    (other : Nat) (hother : other ≠ messageStream req) :
    (s.openStream env req).streams.lookup other =
      if s.streams.lookup (messageStream req) = none ∧ MaxConcurrentStreams ≤ count s.streams ∧
          other = s.oldestID (messageStream req) then none
      else s.streams.lookup other := by
  rw [h.streams_openStream, lookup_insert_eq, if_neg hother, makeRoom]
  cases hself : s.streams.lookup (messageStream req) with
  | some prev => simp only [reduceCtorEq, false_and, if_false, markDead]
  | none =>
    simp only [true_and]
    by_cases hfull : MaxConcurrentStreams ≤ count s.streams
    · rw [if_pos hfull, evictOldest, lookup_erase_eq]
      simp only [hfull, true_and]
    · simp only [ge_iff_le, hfull, false_and, if_false]

theorem Recent.removed (h : Recent s log) (e : Event) {old : Nat}
    (hold : old ≠ messageStream e.req)
    (hgone : (s.afterCall e).streams.lookup old ≠ s.streams.lookup old) :
    e.msgType = .streamStart ∧ s.streams.lookup (messageStream e.req) = none ∧
      MaxConcurrentStreams ≤ count s.streams ∧ old = s.oldestID (messageStream e.req) := by
  cases callCase h.quiet e with
  | idle hactivity hcall => exact absurd (by rw [hcall]) hgone
  | opening hactivity htype hkind hcall =>
    rw [hcall, h.lookup_openStream e.env e.req old hold] at hgone
    split at hgone
    case isTrue hcase => exact ⟨htype, hcase⟩
    case isFalse => exact absurd rfl hgone
  | chunk hactivity htype htouched =>
    refine absurd ?_ hgone
    cases htouched.streams with
    | inl hsame => rw [hsame]
    | inr herase => rw [herase, lookup_erase_eq, if_neg hold]

theorem Recent.removes (h : Recent s log) (hlen : log.length < 2 ^ 64) (e : Event)
    (hcall : s.afterCall e = s.openStream e.env e.req)
    (hnew : s.streams.lookup (messageStream e.req) = none)
    (hfull : MaxConcurrentStreams ≤ count s.streams) :
    Removes s (s.afterCall e) (messageStream e.req) (s.oldestID (messageStream e.req)) := by
  have hold := (h.evicts hlen hnew hfull).inFlight
  have hne : s.oldestID (messageStream e.req) ≠ messageStream e.req := by
    intro heq
    rw [heq] at hold
    exact hold hnew
  refine ⟨hne, ?_, ?_⟩
  · rw [hcall, h.lookup_openStream e.env e.req _ hne, if_pos ⟨hnew, hfull, rfl⟩]
  · intro other hother hother'
    rw [hcall, h.lookup_openStream e.env e.req other hother]
    exact if_neg fun hcase => hother' hcase.2.2

end Evictions

end Reassembler

open Reassembler

/-- With the age prune off and one call at a time, a stream of another id is removed only by
a start of a new id into a full map, which removes one stream, the least recently active
one; and such a start always does. -/
theorem evictions_least_recent {timeout : Int} (htimeout : timeout ≤ 0)
    {p : Reassembler × List Nat}
    (hr : Reachable runLogged (fun _ _ => True) (.new timeout, []) p)
    (hlen : p.2.length < 2 ^ 64) (e : Event) :
    (∀ old, old ≠ messageStream e.req →
      (p.1.afterCall e).streams.lookup old ≠ p.1.streams.lookup old →
      e.msgType = .streamStart ∧ Evicts p.1 p.2 (messageStream e.req) old ∧
        Removes p.1 (p.1.afterCall e) (messageStream e.req) old) ∧
    (e.msgType = .streamStart → startKind MaxStreamSize MaxStreamChunks e.req = .opening →
      p.1.streams.lookup (messageStream e.req) = none →
      count p.1.streams = MaxConcurrentStreams →
      ∃ old, Evicts p.1 p.2 (messageStream e.req) old ∧
        Removes p.1 (p.1.afterCall e) (messageStream e.req) old) := by
  have h := recent_reachable htimeout hr
  constructor
  · intro old hold hgone
    obtain ⟨htype, hnew, hfull, rfl⟩ := h.removed e hold hgone
    refine ⟨htype, h.evicts hlen hnew hfull, ?_⟩
    cases callCase h.quiet e with
    | idle hactivity hcall => exact absurd (by rw [hcall]) hgone
    | opening hactivity _ hkind hcall => exact h.removes hlen e hcall hnew hfull
    | chunk hactivity hchunk htouched =>
      rw [htype] at hchunk
      cases hchunk
  · intro htype hkind hnew hfull
    have hcall : p.1.afterCall e = p.1.openStream e.env e.req := by
      rw [afterCall, htype]
      simp only [handler, handleStart_eq, hkind]
    exact ⟨_, h.evicts hlen hnew hfull.ge, h.removes hlen e hcall hnew hfull.ge⟩

theorem exists_call {s : Reassembler} {log : List Nat} {timeout : Int} (e : Event)
    (hr : Reachable runLogged (fun _ _ => True) (.new timeout, []) (s, log)) :
    ∃ log', Reachable runLogged (fun _ _ => True) (.new timeout, []) (s.afterCall e, log') ∧
      log'.length ≤ log.length + 1 := by
  refine ⟨(s.activity e).toList ++ log, .step _ _ (.call e) hr trivial rfl, ?_⟩
  rw [List.length_append, Nat.add_comm]
  cases s.activity e with
  | none => exact Nat.le_succ _
  | some id => exact Nat.le_refl _

theorem exists_calls {s s' : Reassembler} {log : List Nat} {timeout : Int} (events : List Event)
    (hr : Reachable runLogged (fun _ _ => True) (.new timeout, []) (s, log))
    (hexec : exec callStep s events = some s') :
    ∃ log', Reachable runLogged (fun _ _ => True) (.new timeout, []) (s', log') ∧
      log'.length ≤ log.length + events.length := by
  induction events generalizing s log with
  | nil =>
    cases hexec
    exact ⟨log, hr, Nat.le_refl _⟩
  | cons e events ih =>
    obtain ⟨log', hr', hlength'⟩ := exists_call e hr
    obtain ⟨log'', hr'', hlength''⟩ := ih hr' hexec
    refine ⟨log'', hr'', ?_⟩
    rw [List.length_cons]
    omega

theorem startKind_idleStart (id : Nat) (hid : id < 2 ^ 64) :
    startKind MaxStreamSize MaxStreamChunks (idleStart id) = .opening := by
  rw [startKind_opening_iff, parse_idleStart hid]
  refine ⟨(length_putStreamHeader _).ge, ?_⟩
  show 0 ≤ MaxStreamSize ∧ 2 ≤ MaxStreamChunks ∧ 0 < 2
  decide

theorem fill_logged (n : Nat) (hn : n ≤ MaxConcurrentStreams) :
    ∃ s log q stamp, Reachable runLogged (fun _ _ => True) (.new 0, []) (s, log) ∧
      log.length ≤ 2 * n ∧ Stocked s n q stamp := by
  obtain ⟨s, q, stamp, hexec, h⟩ := exec_fillCalls 0 (Int.le_refl 0) n hn
  obtain ⟨log, hreach, hlength⟩ := exists_calls (fillCalls n) .start hexec
  rw [length_fillCalls, List.length_nil, Nat.zero_add] at hlength
  exact ⟨s, log, q, stamp, hreach, hlength, h⟩

/-- A full map gives up a stream for a new one. -/
theorem evictions_least_recent_full :
    ∃ p : Reassembler × List Nat, ∃ e : Event, ∃ old,
      count p.1.streams = MaxConcurrentStreams ∧ p.1.streams.lookup old ≠ none ∧
        (p.1.afterCall e).streams.lookup old = none := by
  obtain ⟨s, log, q, stamp, hreach, hlength, h⟩ :=
    fill_logged MaxConcurrentStreams (Nat.le_refl _)
  have hid : messageStream (idleStart MaxConcurrentStreams) = MaxConcurrentStreams := by
    rw [messageStream, parse_idleStart (by decide)]
  have hlen : log.length < 2 ^ 64 := Nat.lt_of_le_of_lt hlength (by decide)
  obtain ⟨old, hevicts, hremoves⟩ := (evictions_least_recent (Int.le_refl 0) hreach hlen
    ⟨still, .streamStart, idleStart MaxConcurrentStreams⟩).2 rfl (startKind_idleStart _ (by decide))
    (by rw [hid]; exact h.lookup_new) h.size
  exact ⟨(s, log), ⟨still, .streamStart, idleStart MaxConcurrentStreams⟩, old, h.size,
    hevicts.inFlight, hremoves.2.1⟩

theorem exists_logged {s s' : Reassembler} (h : Reachable callStep StillCall s s')
    (log : List Nat) :
    ∃ log', Reachable runLogged (fun _ _ => True) (s, log) (s', log') := by
  induction h with
  | start => exact ⟨log, .start⟩
  | step t t' e _ _ hstep ih =>
    obtain ⟨log', hreach⟩ := ih
    cases hstep
    exact ⟨_, .step _ _ (.call e) hreach trivial rfl⟩

/-- After the counter has wrapped, a start into a full map can remove none. -/
theorem evictions_stop :
    ∃ p : Reassembler × List Nat, ∃ e : Event,
      Reachable runLogged (fun _ _ => True) (.new 0, []) p ∧ e.msgType = .streamStart ∧
        startKind MaxStreamSize MaxStreamChunks e.req = .opening ∧
        p.1.streams.lookup (messageStream e.req) = none ∧
        count p.1.streams = MaxConcurrentStreams ∧
        ∀ old, old ≠ messageStream e.req →
          (p.1.afterCall e).streams.lookup old = p.1.streams.lookup old := by
  obtain ⟨s, q, stamp, hreach, h, hadded⟩ := full_unmoved 0 (Int.le_refl 0)
  obtain ⟨log, hlogged⟩ := exists_logged hreach []
  have hid : messageStream (idleStart MaxConcurrentStreams) = MaxConcurrentStreams := by
    rw [messageStream, parse_idleStart (by decide)]
  refine ⟨(s, log), ⟨still, .streamStart, idleStart MaxConcurrentStreams⟩, hlogged, rfl, ?_, ?_,
    h.size, ?_⟩
  · exact startKind_idleStart _ (by decide)
  · rw [hid]
    exact h.lookup_new
  · intro old hold
    rw [hid] at hold
    exact (hadded.lookup old).trans (if_neg hold)

end ShmIpc.Stream.Go
