import ShmIpc.Stream.Consume
import ShmIpc.Stream.HandlerSafety

/-!
The activity counter of the Go reassembler after it has wrapped. The scan for the least
recently active stream starts from the largest counter value and takes only smaller
stamps, so it finds nothing when every stream in a full map carries exactly that value;
the start then adds a stream beyond the cap. Such a state takes more than `2 ^ 64` chunk
messages for each of the streams, which is why it is reached here by induction.
-/

namespace ShmIpc.Stream.Go
open Library

def idleStart (id : Nat) : List UInt8 := putStreamHeader ⟨id, 0, 2, 0⟩

def idleChunk (id : Nat) : List UInt8 := putChunkHeader ⟨id, 0, 0, 0, 0⟩

theorem parse_idleStart {id : Nat} (h : id < 2 ^ 64) :
    parseStreamHeader (idleStart id) = ⟨id, 0, 2, 0⟩ := by
  have hparse := parseStreamHeader_put ⟨id, 0, 2, 0⟩
    ⟨h, by simp, by simp, by simp⟩ []
  rwa [List.append_nil] at hparse

theorem parse_idleChunk {id : Nat} (h : id < 2 ^ 64) :
    parseChunkHeader (idleChunk id) = ⟨id, 0, 0, 0, 0⟩ := by
  have hparse := parseChunkHeader_put ⟨id, 0, 0, 0, 0⟩
    ⟨h, by simp, by simp, by simp, by simp⟩ []
  rwa [List.append_nil] at hparse

theorem payload_idleChunk {id : Nat} (h : id < 2 ^ 64) : chunkPayload (idleChunk id) = [] := by
  rw [chunkPayload, parse_idleChunk h, List.take_zero]

def waitingContext (lastSeq : Nat) : GuestContext where
  toStreamContext := { StreamContext.fresh 0 2 0 [] with next := 1 }
  done := false
  dead := false
  lastSeq := lastSeq
  started := 0

def still : Surroundings := ⟨0, fun n => .replicate n 0⟩

/-- The streams `0` to `n - 1` are waiting for their second chunk, stream `i` stamped
with `stamp i`, and the counter stands at `q`. -/
structure Stocked (s : Reassembler) (n q : Nat) (stamp : Nat → Nat) : Prop where
  timeout : 0 ≤ s.timeout
  lookup : ∀ id, s.streams.lookup id = if id < n then some id else none
  size : count s.streams = n
  allocated : s.allocated = n
  seq : s.seq = q
  heap : ∀ i, i < n → s.heap i = some (waitingContext (stamp i))

/-- One more call of a run, with no other call running. -/
def callStep (s : Reassembler) (e : Event) : Option Reassembler :=
  some (s.handler e.env e.msgType e.req).1

/-- Stream messages under the still clock. -/
def StillCall (_ : Reassembler) (e : Event) : Prop :=
  e.env = still ∧ (e.msgType = .streamStart ∨ e.msgType = .streamChunk)

section Stocked

variable {s : Reassembler} {n q : Nat} {stamp : Nat → Nat}

theorem stocked_touch (h : Stocked s n q stamp) (i : Nat) (hi : i < n) (hid : i < 2 ^ 64) :
    Stocked (s.handleChunk (idleChunk i)).1 n ((q + 1) % 2 ^ 64)
      (Function.update stamp i ((q + 1) % 2 ^ 64)) := by
  have hlook : s.streams.lookup i = some i := by rw [h.lookup, if_pos hi]
  have hlen : (idleChunk i).length = chunkHeaderSize := length_putChunkHeader _
  have hheap := h.heap i hi
  have hafter : (s.handleChunk (idleChunk i)).1 =
      ({ s with seq := (q + 1) % 2 ^ 64 } : Reassembler).setContext i
        (waitingContext ((q + 1) % 2 ^ 64)) := by
    have hlookup : s.lookupSection i 0 =
        (({ s with seq := (q + 1) % 2 ^ 64 } : Reassembler).setContext i
          (waitingContext ((q + 1) % 2 ^ 64)), some i) := by
      simp only [Reassembler.lookupSection, hlook, hheap, h.seq]
      rfl
    simp only [Reassembler.handleChunk, hlen, parse_idleChunk hid, payload_idleChunk hid, hlookup,
      Nat.lt_irrefl, Nat.add_zero, if_false, Reassembler.contextSection, Reassembler.setContext,
      Function.update_self]
    rfl
  rw [hafter]
  refine ⟨h.timeout, h.lookup, h.size, h.allocated, rfl, ?_⟩
  intro j hj
  simp only [Reassembler.setContext, Function.update_apply]
  split
  · rfl
  · exact h.heap j hj

/-- The new context of a start, before the map mutex is taken. -/
def readied (s : Reassembler) (n : Nat) : Reassembler :=
  s.allocate (.new ⟨n, 0, 2, 0⟩ [])

theorem handleStart_idle (hid : n < 2 ^ 64) :
    (s.handleStart still (idleStart n)).1 =
      (readied s n).startSection 0 n s.allocated := by
  have hlen : (idleStart n).length = streamHeaderSize := length_putStreamHeader _
  have hbounds : ¬ (2 > MaxStreamChunks ∨ 0 > MaxStreamSize) := by decide
  have hpos : ¬ (2 : Nat) = 0 := by decide
  have hbuf : (still.newBuf (parseStreamHeader (idleStart n)).totalSize).toList = [] := by
    apply List.eq_nil_of_length_eq_zero
    rw [Vector.length_toList, parse_idleStart hid]
  have hnow : still.now = 0 := rfl
  simp only [Reassembler.handleStart, hbuf, hlen, parse_idleStart hid, Nat.lt_irrefl, if_false,
    hbounds, hpos, hnow, readied]

/-- What a start adds when it reclaims nothing: the stream `n`, not yet waiting. -/
structure Added (s s' : Reassembler) (n q : Nat) : Prop where
  timeout : s'.timeout = s.timeout
  lookup : ∀ id, s'.streams.lookup id = if id = n then some n else s.streams.lookup id
  size : count s'.streams = n + 1
  allocated : s'.allocated = n + 1
  seq : s'.seq = (q + 1) % 2 ^ 64
  heap : s'.heap = Function.update s.heap n (some { GuestContext.new ⟨n, 0, 2, 0⟩ [] with
    lastSeq := (q + 1) % 2 ^ 64, started := 0 })

theorem Stocked.injective (h : Stocked s n q stamp) : s.Injective := by
  intro id id' ref hlook hlook'
  rw [h.lookup] at hlook hlook'
  split at hlook
  · split at hlook'
    · exact (Option.some.inj hlook).trans (Option.some.inj hlook').symm
    · cases hlook'
  · cases hlook

theorem Stocked.lookup_new (h : Stocked s n q stamp) : s.streams.lookup n = none := by
  rw [h.lookup, if_neg (Nat.lt_irrefl n)]

theorem Stocked.unused (h : Stocked s n q stamp) (i : Nat) : s.streams.lookup i ≠ some n := by
  intro hlook
  rw [h.lookup] at hlook
  split at hlook
  · next hi =>
      cases hlook
      exact Nat.lt_irrefl _ hi
  · cases hlook

theorem timeout_cleared (s : Reassembler) (now : Int) (streamID : Nat) :
    (s.cleared now streamID).timeout = s.timeout := by
  simp only [Reassembler.cleared, Reassembler.makeRoom, Reassembler.prune]
  repeat' split
  all_goals rfl

theorem stocked_start (h : Stocked s n q stamp) (hid : n < 2 ^ 64)
    (hnone : ∀ id r, ¬ (readied s n).Reclaims 0 n id r) :
    Added s (s.handleStart still (idleStart n)).1 n q := by
  have hheap : (readied s n).heap = Function.update s.heap n (some (.new ⟨n, 0, 2, 0⟩ [])) := by
    simp only [readied, Reassembler.allocate, Reassembler.setContext, h.allocated]
  obtain ⟨hlookup, hkept, halloc⟩ := Reassembler.cleared_of_no_reclaims (readied s n) 0 n
    h.injective hnone
  have heq := Reassembler.startSection_eq (readied s n) 0 n n _ h.injective
    (by rw [hheap, Function.update_self]) h.unused
  rw [handleStart_idle hid, h.allocated, heq]
  have hnew : ((readied s n).cleared 0 n).streams.lookup n = none :=
    (hlookup n).trans h.lookup_new
  refine ⟨timeout_cleared _ _ _, ?_, ?_, ?_, ?_, ?_⟩
  · intro id
    rw [lookup_insert_eq, hlookup]
    rfl
  · rw [count_insert _ _ _ (AList.lookup_eq_none.mp hnew)]
    have hsize := count_eq_of_keys ((readied s n).cleared 0 n).streams s.streams fun id => by
      rw [hlookup]
      rfl
    rw [hsize, h.size]
  · change ((readied s n).cleared 0 n).allocated = n + 1
    rw [halloc, readied, Reassembler.allocate, h.allocated]
  · have hseq : (readied s n).seq = q := h.seq
    simp only [hseq]
  · have hseq : (readied s n).seq = q := h.seq
    simp only [hkept, hheap, hseq, Function.update_idem]

theorem stocked_added (h : Stocked s n q stamp) (s' : Reassembler) (ha : Added s s' n q)
    (hid : n < 2 ^ 64) :
    Stocked (s'.handleChunk (idleChunk n)).1 (n + 1) (((q + 1) % 2 ^ 64 + 1) % 2 ^ 64)
      (Function.update stamp n (((q + 1) % 2 ^ 64 + 1) % 2 ^ 64)) := by
  have hlook : s'.streams.lookup n = some n := by rw [ha.lookup, if_pos rfl]
  have hlen : (idleChunk n).length = chunkHeaderSize := length_putChunkHeader _
  have hheap : s'.heap n = some { GuestContext.new ⟨n, 0, 2, 0⟩ [] with
      lastSeq := (q + 1) % 2 ^ 64, started := 0 } := by rw [ha.heap, Function.update_self]
  have hlookup : s'.lookupSection n 0 =
      (({ s' with seq := ((q + 1) % 2 ^ 64 + 1) % 2 ^ 64 } : Reassembler).setContext n
        { GuestContext.new ⟨n, 0, 2, 0⟩ [] with
          lastSeq := ((q + 1) % 2 ^ 64 + 1) % 2 ^ 64, started := 0 }, some n) := by
    simp only [Reassembler.lookupSection, hlook, hheap, ha.seq]
    rfl
  have hafter : (s'.handleChunk (idleChunk n)).1 =
      (({ s' with seq := ((q + 1) % 2 ^ 64 + 1) % 2 ^ 64 } : Reassembler).setContext n
        { GuestContext.new ⟨n, 0, 2, 0⟩ [] with
          lastSeq := ((q + 1) % 2 ^ 64 + 1) % 2 ^ 64, started := 0 }).setContext n
        (waitingContext (((q + 1) % 2 ^ 64 + 1) % 2 ^ 64)) := by
    simp only [Reassembler.handleChunk, hlen, parse_idleChunk hid, payload_idleChunk hid, hlookup,
      Nat.lt_irrefl, Nat.add_zero, if_false, Reassembler.contextSection, Reassembler.setContext,
      Function.update_self]
    rfl
  rw [hafter]
  refine ⟨?_, ?_, ha.size, ha.allocated, rfl, ?_⟩
  · exact (congrArg (fun x : Int => 0 ≤ x) ha.timeout).mpr h.timeout
  · intro id
    change s'.streams.lookup id = _
    rw [ha.lookup, h.lookup]
    by_cases hidn : id = n
    · rw [if_pos hidn, if_pos (by omega), hidn]
    · rw [if_neg hidn]
      by_cases hlt : id < n
      · rw [if_pos hlt, if_pos (by omega)]
      · rw [if_neg hlt, if_neg (by omega)]
  · intro i hi
    simp only [Reassembler.setContext, Function.update_idem]
    by_cases hin : i = n
    · rw [hin, Function.update_self, Function.update_self]
    · rw [Function.update_of_ne hin, Function.update_of_ne hin, ha.heap,
        Function.update_of_ne hin]
      exact h.heap i (by omega)

theorem Stocked.heap_readied (h : Stocked s n q stamp) (i : Nat) (hi : i < n) :
    (readied s n).heap i = some (waitingContext (stamp i)) := by
  have hne : i ≠ s.allocated := by rw [h.allocated]; omega
  exact (Function.update_of_ne hne _ _).trans (h.heap i hi)

theorem Stocked.evicts (h : Stocked s n q stamp) {id r : Nat}
    (hreclaims : (readied s n).Reclaims 0 n id r) :
    MaxConcurrentStreams ≤ n ∧
      ((readied s n).prune 0).streams.lookup (((readied s n).prune 0).oldestID n) = some r := by
  cases hreclaims with
  | pruned id r hlook htimeout hexpired =>
    change s.streams.lookup id = some r at hlook
    rw [h.lookup] at hlook
    split at hlook
    · next hlt =>
        cases hlook
        have htime : (readied s n).timeout = s.timeout := rfl
        simp only [Reassembler.isExpired, h.heap_readied id hlt, waitingContext, htime,
          decide_eq_true_eq] at hexpired
        have hpos := h.timeout
        omega
    · cases hlook
  | replaced r hlook =>
    have hold : s.streams.lookup n = some r :=
      (Reassembler.shrinksOff_prune 0 (readied s n) 0).entry n r hlook
    rw [h.lookup_new] at hold
    cases hold
  | evicted r hnew hfull hlook =>
    refine ⟨hfull.trans ((Reassembler.count_prune_le (readied s n) 0).trans ?_), hlook⟩
    exact Nat.le_of_eq h.size

theorem Stocked.oldestID_eq (h : Stocked s n q stamp)
    (hstamp : ∀ i, i < n → stamp i = 2 ^ 64 - 1) :
    ((readied s n).prune 0).oldestID n = n := by
  rw [Reassembler.oldestID, Reassembler.scan_eq_start]
  intro e he
  have hlook := (Reassembler.shrinksOff_prune 0 (readied s n) 0).entry e.1 e.2
    (AList.mem_lookup_iff.mpr he)
  change s.streams.lookup e.1 = some e.2 at hlook
  rw [h.lookup] at hlook
  split at hlook
  · next hlt =>
      have hlt' : e.2 < n := by rw [← Option.some.inj hlook]; exact hlt
      rw [lastSeqOf_prune, lastSeqOf_eq _ _ _ (h.heap_readied e.2 hlt'), waitingContext,
        hstamp e.2 hlt']
  · cases hlook

end Stocked

section Runs

variable {s : Reassembler} {n q : Nat} {stamp : Nat → Nat}

theorem callStep_chunk (s : Reassembler) (env : Surroundings) (req : List UInt8) :
    callStep s ⟨env, .streamChunk, req⟩ = some (s.handleChunk req).1 := by
  rfl

theorem callStep_start (s : Reassembler) (env : Surroundings) (req : List UInt8) :
    callStep s ⟨env, .streamStart, req⟩ = some (s.handleStart env req).1 := by
  rfl

theorem reachable_chunk (i : Nat) :
    Reachable callStep StillCall s (s.handleChunk (idleChunk i)).1 :=
  .step s _ ⟨still, .streamChunk, idleChunk i⟩ .start ⟨rfl, Or.inr rfl⟩ (callStep_chunk _ _ _)

theorem reachable_start (i : Nat) :
    Reachable callStep StillCall s (s.handleStart still (idleStart i)).1 :=
  .step s _ ⟨still, .streamStart, idleStart i⟩ .start ⟨rfl, Or.inl rfl⟩ (callStep_start _ _ _)

/-- The calls that open `n` streams, each with its second chunk. -/
def fillCalls (n : Nat) : List Event :=
  (List.range n).flatMap fun i =>
    [⟨still, .streamStart, idleStart i⟩, ⟨still, .streamChunk, idleChunk i⟩]

theorem fillCalls_succ (n : Nat) : fillCalls (n + 1) = fillCalls n ++
    [⟨still, .streamStart, idleStart n⟩, ⟨still, .streamChunk, idleChunk n⟩] := by
  simp [fillCalls, List.range_succ]

theorem length_fillCalls (n : Nat) : (fillCalls n).length = 2 * n := by
  induction n with
  | zero => rfl
  | succ n ih =>
    rw [fillCalls_succ, List.length_append, ih]
    rfl

theorem exec_fillCalls (timeout : Int) (htimeout : 0 ≤ timeout) (n : Nat)
    (hn : n ≤ MaxConcurrentStreams) :
    ∃ s q stamp, exec callStep (.new timeout) (fillCalls n) = some s ∧ Stocked s n q stamp := by
  induction n with
  | zero =>
    exact ⟨.new timeout, 0, fun _ => 0, rfl, htimeout, fun _ => rfl, rfl, rfl, rfl,
      fun i hi => absurd hi (Nat.not_lt_zero i)⟩
  | succ n ih =>
    obtain ⟨s, q, stamp, hexec, h⟩ := ih (by omega)
    have hid : n < 2 ^ 64 := by simp only [MaxConcurrentStreams] at hn; omega
    have hadded := stocked_start h hid fun id r hreclaims => by
      have hfull := (h.evicts hreclaims).1
      omega
    refine ⟨_, _, _, ?_, stocked_added h _ hadded hid⟩
    rw [fillCalls_succ, exec_append, hexec]
    rfl

theorem fill (timeout : Int) (htimeout : 0 ≤ timeout) (n : Nat)
    (hn : n ≤ MaxConcurrentStreams) :
    ∃ s q stamp, Reachable callStep StillCall (.new timeout) s ∧ Stocked s n q stamp := by
  obtain ⟨s, q, stamp, hexec, h⟩ := exec_fillCalls timeout htimeout n hn
  refine ⟨s, q, stamp, .of_exec (fillCalls n) ?_ hexec, h⟩
  intro s e he
  simp only [fillCalls, List.mem_flatMap, List.mem_cons, List.not_mem_nil, or_false] at he
  obtain ⟨i, -, rfl | rfl⟩ := he
  · exact ⟨rfl, Or.inl rfl⟩
  · exact ⟨rfl, Or.inr rfl⟩

theorem touches (h : Stocked s n q stamp) (i : Nat) (hi : i < n) (hid : i < 2 ^ 64) (k : Nat) :
    ∃ s', Reachable callStep StillCall s s' ∧
      Stocked s' n ((q + (k + 1)) % 2 ^ 64)
        (Function.update stamp i ((q + (k + 1)) % 2 ^ 64)) := by
  induction k with
  | zero => exact ⟨_, reachable_chunk i, stocked_touch h i hi hid⟩
  | succ k ih =>
    obtain ⟨s', hreach, h'⟩ := ih
    have hnext := stocked_touch h' i hi hid
    rw [Function.update_idem, Nat.mod_add_mod, Nat.add_assoc q (k + 1) 1] at hnext
    exact ⟨_, hreach.trans (reachable_chunk i), hnext⟩

theorem stampLast (h : Stocked s n q stamp) (i : Nat) (hi : i < n) (hid : i < 2 ^ 64) :
    ∃ s' q', Reachable callStep StillCall s s' ∧
      Stocked s' n q' (Function.update stamp i (2 ^ 64 - 1)) := by
  obtain ⟨s', hreach, h'⟩ := touches h i hi hid (2 ^ 64 + (2 ^ 64 - 2) - q % 2 ^ 64)
  have hcounter : (q + (2 ^ 64 + (2 ^ 64 - 2) - q % 2 ^ 64 + 1)) % 2 ^ 64 = 2 ^ 64 - 1 := by
    omega
  rw [hcounter] at h'
  exact ⟨s', _, hreach, h'⟩

theorem stampAll (h : Stocked s n q stamp) (hid : n ≤ 2 ^ 64) (m : Nat) (hm : m ≤ n) :
    ∃ s' q' stamp', Reachable callStep StillCall s s' ∧ Stocked s' n q' stamp' ∧
      ∀ i, i < m → stamp' i = 2 ^ 64 - 1 := by
  induction m with
  | zero => exact ⟨s, q, stamp, .start, h, fun i hi => absurd hi (Nat.not_lt_zero i)⟩
  | succ m ih =>
    obtain ⟨s', q', stamp', hreach, h', hstamp⟩ := ih (by omega)
    obtain ⟨s'', q'', hreach', h''⟩ := stampLast h' m (by omega) (by omega)
    refine ⟨s'', q'', _, hreach.trans hreach', h'', ?_⟩
    intro i hi
    rw [Function.update_apply]
    split
    · rfl
    · exact hstamp i (by omega)

/-- Some run of calls, none overlapping another, fills the map with streams of which a
start reclaims none. -/
theorem full_unmoved (timeout : Int) (htimeout : 0 ≤ timeout) :
    ∃ s q stamp, Reachable callStep StillCall (.new timeout) s ∧
      Stocked s MaxConcurrentStreams q stamp ∧
      Added s (s.handleStart still (idleStart MaxConcurrentStreams)).1 MaxConcurrentStreams q := by
  obtain ⟨s, q, stamp, hreach, h⟩ := fill timeout htimeout MaxConcurrentStreams (Nat.le_refl _)
  obtain ⟨s', q', stamp', hreach', h', hstamp⟩ := stampAll h (by decide) _ (Nat.le_refl _)
  refine ⟨s', q', stamp', hreach.trans hreach', h', stocked_start h' (by decide) ?_⟩
  intro id r hreclaims
  have hlook := (h'.evicts hreclaims).2
  rw [h'.oldestID_eq hstamp] at hlook
  have hold : s'.streams.lookup MaxConcurrentStreams = some r :=
    (Reassembler.shrinksOff_prune 0 (readied s' MaxConcurrentStreams) 0).entry _ r hlook
  rw [h'.lookup_new] at hold
  cases hold

theorem cap_exceeded (timeout : Int) (htimeout : 0 ≤ timeout) :
    ∃ s, Reachable callStep StillCall (.new timeout) s ∧
      count s.streams = MaxConcurrentStreams + 1 := by
  obtain ⟨s, q, stamp, hreach, -, hadded⟩ := full_unmoved timeout htimeout
  exact ⟨_, hreach.trans (reachable_start _), hadded.size⟩

end Runs

theorem standsAlone_of_calls {r : Reassembler} (timeout : Int)
    (hcalls : Reachable callStep StillCall (.new timeout) r) :
    ∃ s : HandlerSystem Unit,
      Reachable HandlerSystem.step (fun _ _ => True) (.start Unit timeout) s ∧
        StandsAlone s () .idle r fun _ => false := by
  induction hcalls with
  | start => exact ⟨_, .start, rfl, rfl, rfl, fun _ _ => rfl⟩
  | step r r' e _ hstill hstep ih =>
    obtain ⟨s, hreach, h⟩ := ih
    cases hstep
    obtain ⟨s', hreach', h'⟩ := serves_handler h e.env e.msgType e.req hstill.2
    exact ⟨s', hreach.trans hreach', h'⟩

/-- Once the counter has come round, the eviction finds no oldest stream and the map
outgrows its bound. -/
theorem handlers_exceed_cap :
    ∃ s : HandlerSystem Unit,
      Reachable HandlerSystem.step (fun _ _ => True) (.start Unit DefaultStreamTimeout) s ∧
        MaxConcurrentStreams < count s.reassembler.streams := by
  obtain ⟨r, hcalls, hcount⟩ := cap_exceeded DefaultStreamTimeout (by decide)
  obtain ⟨s, hreach, h⟩ := standsAlone_of_calls DefaultStreamTimeout hcalls
  refine ⟨s, hreach, ?_⟩
  rw [h.reassembler, hcount]
  exact Nat.lt_succ_self _

end ShmIpc.Stream.Go
