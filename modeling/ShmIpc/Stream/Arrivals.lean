import ShmIpc.Stream.Delivery

/-!
The chunk messages of one stream, in whatever order they arrive. `Arrives` says
what a legal order is without looking at a reassembler: every index shows up
with the payload and the offset of its block the first time, repetitions are
free to carry anything, and a chunk ahead of the least missing index finds fewer
than `maxParked` such chunks before it. A context fed a legal order acknowledges
every message and delivers at the last missing index; a context fed chunks of
any other family never delivers.
-/

namespace ShmIpc.Stream
open Library

namespace StreamContext

/-- The stream left in flight by an outcome, and the answer. -/
def settle (c : StreamContext) (id : Nat) :
    StreamContext × ChunkOutcome → Option StreamContext × Answer
  | (_, .duplicate) => (some c, .ack)
  | (d, .accepted) => (some d, .ack)
  | (_, .corrupt) => (none, .error)
  | (_, .complete data) => (none, ⟨.normal, some ⟨id, c.appMsgType, data⟩⟩)

/-- What one stream does with a chunk message addressed to it. -/
def takeChunk (c : StreamContext) (maxParked : Nat) (allocFails : Bool) (req : List UInt8) :
    Option StreamContext × Answer :=
  if req.length < chunkHeaderSize + (parseChunkHeader req).payloadSize then (some c, .error)
  else if (parseChunkHeader req).chunkIndex ≥ c.totalChunks then (some c, .error)
  else
    c.settle (parseChunkHeader req).streamId (c.consume maxParked allocFails
      (parseChunkHeader req).chunkIndex (parseChunkHeader req).dstOffset (chunkPayload req))

end StreamContext

/-- The answers of a stream to a sequence of chunk messages, each with whether
a parking allocation would fail. A stream no longer in flight is unknown. -/
def takeChunks (maxParked : Nat) : Option StreamContext → List (Bool × List UInt8) → List Answer
  | _, [] => []
  | none, _ :: calls => .error :: takeChunks maxParked none calls
  | some c, (allocFails, req) :: calls =>
    (c.takeChunk maxParked allocFails req).2 ::
      takeChunks maxParked (c.takeChunk maxParked allocFails req).1 calls

/-- A chunk message of stream `id` that satisfies framing. -/
structure Framed (id : Nat) (req : List UInt8) : Prop where
  length : chunkHeaderSize + (parseChunkHeader req).payloadSize ≤ req.length
  streamId : (parseChunkHeader req).streamId = id

/-- Legal arrival orders of the blocks `p 0 .. p (n - 1)`: from the indices
already taken in to those taken in after the messages. -/
inductive Arrives (id n maxParked : Nat) (p : Nat → List UInt8) :
    List Nat → List (List UInt8) → List Nat → Prop
  | nil (seen : List Nat) : Arrives id n maxParked p seen [] seen
  | again (seen seen' : List Nat) (req : List UInt8) (reqs : List (List UInt8))
      (hframed : Framed id req) (hseen : (parseChunkHeader req).chunkIndex ∈ seen)
      (hrest : Arrives id n maxParked p seen reqs seen') :
      Arrives id n maxParked p seen (req :: reqs) seen'
  | first (seen seen' : List Nat) (req : List UInt8) (reqs : List (List UInt8))
      (hframed : Framed id req) (hnew : (parseChunkHeader req).chunkIndex ∉ seen)
      (hindex : (parseChunkHeader req).chunkIndex < n)
      (hpayload : chunkPayload req = p (parseChunkHeader req).chunkIndex)
      (hdst : (parseChunkHeader req).dstOffset = startOf p (parseChunkHeader req).chunkIndex)
      (hroom : ∀ next, (∀ j, j < next → j ∈ seen) → next ∉ seen →
        (parseChunkHeader req).chunkIndex = next ∨
          (seen.filter fun j => next < j).length < maxParked)
      (hrest : Arrives id n maxParked p (seen ++ [(parseChunkHeader req).chunkIndex]) reqs seen') :
      Arrives id n maxParked p seen (req :: reqs) seen'

def CoversAll (n : Nat) (seen : List Nat) : Prop := ∀ i, i < n → i ∈ seen

section Tracked

variable {initial : List UInt8} {W : List Arrival} {c : StreamContext}

theorem count_ooo (h : Tracks initial W c) (hs : Steady c) :
    count c.ooo = ((indices W).filter fun j => c.next < j).length := by
  have hperm : c.ooo.keys.Perm ((indices W).filter fun j => c.next < j) := by
    rw [List.perm_ext_iff_of_nodup (AList.keys_nodup _) (h.distinct.filter _)]
    intro i
    rw [← AList.mem_keys, ← AList.lookup_isSome, Option.isSome_iff_exists, List.mem_filter,
      decide_eq_true_eq]
    constructor
    · intro hsome
      obtain ⟨q, hq⟩ := hsome
      obtain ⟨hle, a, ha, hi, -⟩ := (h.parked i q).mp hq
      have hne : i ≠ c.next := by
        intro heq
        rw [heq, hs] at hq
        cases hq
      exact ⟨mem_indices.mpr ⟨a, ha, hi⟩, by omega⟩
    · intro hmem
      obtain ⟨a, ha, hi⟩ := mem_indices.mp hmem.1
      exact ⟨_, (h.parked i _).mpr ⟨Nat.le_of_lt hmem.2, a, ha, hi, rfl⟩⟩
  rw [← hperm.length_eq, count, AList.keys, List.keys, List.length_map]

theorem next_notMem (h : Tracks initial W c) (hs : Steady c) : c.next ∉ indices W := by
  intro hmem
  obtain ⟨a, ha, hi⟩ := mem_indices.mp hmem
  have hlook := (h.parked c.next _).mpr ⟨Nat.le_refl _, a, ha, hi, rfl⟩
  rw [hs] at hlook
  cases hlook

theorem indices_append (W : List Arrival) (a : Arrival) :
    indices (W ++ [a]) = indices W ++ [a.index] := by
  simp [indices]

theorem takeChunk_framed (c : StreamContext) (maxParked : Nat) (allocFails : Bool) (id : Nat)
    (req : List UInt8) (hframed : Framed id req)
    (hindex : (parseChunkHeader req).chunkIndex < c.totalChunks) :
    c.takeChunk maxParked allocFails req = c.settle id (c.consume maxParked allocFails
      (parseChunkHeader req).chunkIndex (parseChunkHeader req).dstOffset
      (chunkPayload req)) := by
  rw [StreamContext.takeChunk, if_neg (Nat.not_lt.mpr hframed.length),
    if_neg (Nat.not_le.mpr hindex), hframed.streamId]

theorem takeChunk_again (h : Live initial W c) (maxParked : Nat) (allocFails : Bool)
    (id : Nat) (req : List UInt8) (hframed : Framed id req)
    (hseen : (parseChunkHeader req).chunkIndex ∈ indices W) :
    c.takeChunk maxParked allocFails req = (some c, .ack) := by
  obtain ⟨a, ha, hi⟩ := mem_indices.mp hseen
  have hbelow := h.tracks.below a ha
  rw [takeChunk_framed c maxParked allocFails id req hframed (by omega),
    consume_duplicate h _ _ _ _ _ hseen, StreamContext.settle]

/-- What holds of a context that has taken in the blocks `seen` of the family
`p`, the sizes of the family adding up. -/
structure Holds (p : Nat → List UInt8) (initial : List UInt8) (W : List Arrival)
    (c : StreamContext) : Prop where
  live : Live initial W c
  conforms : Conforms p W
  sum : startOf p c.totalChunks = c.totalSize

theorem takeChunk_first {p : Nat → List UInt8} (h : Holds p initial W c) (maxParked : Nat)
    (id : Nat) (req : List UInt8) (hframed : Framed id req)
    (hnew : (parseChunkHeader req).chunkIndex ∉ indices W)
    (hindex : (parseChunkHeader req).chunkIndex < c.totalChunks)
    (hpayload : chunkPayload req = p (parseChunkHeader req).chunkIndex)
    (hdst : (parseChunkHeader req).dstOffset = startOf p (parseChunkHeader req).chunkIndex)
    (hroom : (parseChunkHeader req).chunkIndex = c.next ∨
      ((indices W).filter fun j => c.next < j).length < maxParked) :
    (CoversAll c.totalChunks (indices W ++ [(parseChunkHeader req).chunkIndex]) →
      c.takeChunk maxParked false req =
        (none, ⟨.normal, some ⟨id, c.appMsgType, concat p c.totalChunks⟩⟩)) ∧
    (¬ CoversAll c.totalChunks (indices W ++ [(parseChunkHeader req).chunkIndex]) →
      ∃ d, c.takeChunk maxParked false req = (some d, .ack) ∧ SameStream c d ∧
        Holds p initial (W ++ [chunkArrival req]) d) := by
  have hplaced : (chunkArrival req).index ≠ c.next → count c.ooo < maxParked := by
    intro hne
    rw [count_ooo h.live.tracks h.live.steady]
    cases hroom with
    | inl heq => exact absurd heq hne
    | inr hlt => exact hlt
  obtain ⟨d, hsame, htracks, hsteady, hconsume⟩ := consume_conforming h.live h.conforms maxParked
    (chunkArrival req) hnew hindex hpayload hdst h.sum hplaced
  rw [indices_append] at hconsume
  rw [takeChunk_framed c maxParked false id req hframed hindex]
  constructor
  · intro hall
    rw [if_pos (show ∀ i, i < c.totalChunks → i ∈ indices W ++ [(chunkArrival req).index]
      from hall)] at hconsume
    exact congrArg (c.settle id) hconsume
  · intro hall
    rw [if_neg (show ¬ ∀ i, i < c.totalChunks → i ∈ indices W ++ [(chunkArrival req).index]
      from hall)] at hconsume
    exact ⟨d, congrArg (c.settle id) hconsume.1, hsame, ⟨htracks, hsteady, hconsume.2⟩,
      conforms_append h.conforms _ hpayload hdst,
      by rw [hsame.totalChunks, hsame.totalSize]; exact h.sum⟩

theorem Arrives.subset {id n maxParked : Nat} {p : Nat → List UInt8} {seen seen' : List Nat}
    {reqs : List (List UInt8)} (h : Arrives id n maxParked p seen reqs seen') :
    seen ⊆ seen' := by
  induction h with
  | nil seen => exact List.Subset.refl seen
  | again seen seen' req reqs _ _ _ ih => exact ih
  | first seen seen' req reqs _ _ _ _ _ _ _ ih =>
    exact fun i hi => ih (List.mem_append_left _ hi)

/-- A legal order that leaves an index missing is acknowledged message by
message, and the context stands ready for the rest. -/
theorem takeChunks_arrives {p : Nat → List UInt8} {id n maxParked : Nat}
    {seen seen' : List Nat} {reqs : List (List UInt8)}
    (harr : Arrives id n maxParked p seen reqs seen') (W : List Arrival) (c : StreamContext)
    (h : Holds p initial W c) (hn : c.totalChunks = n) (hW : indices W = seen)
    (hmissing : ¬ CoversAll n seen') :
    ∃ W' d, Holds p initial W' d ∧ SameStream c d ∧ indices W' = seen' ∧
      ∀ calls, takeChunks maxParked (some c) (reqs.map (Prod.mk false) ++ calls) =
        reqs.map (fun _ => .ack) ++ takeChunks maxParked (some d) calls := by
  induction harr generalizing W c with
  | nil seen => exact ⟨W, c, h, ⟨rfl, rfl, rfl⟩, hW, fun calls => rfl⟩
  | again seen seen' req reqs hframed hseen hrest ih =>
    obtain ⟨W', d, hd, hsame, hW', hcalls⟩ := ih W c h hn hW hmissing
    refine ⟨W', d, hd, hsame, hW', ?_⟩
    intro calls
    simp only [List.map_cons, List.cons_append, takeChunks,
      takeChunk_again h.live maxParked false id req hframed (hW ▸ hseen), hcalls]
  | first seen seen' req reqs hframed hnew hindex hpayload hdst hroom hrest ih =>
    subst hW hn
    have hsome : ¬ CoversAll c.totalChunks (indices W ++ [(parseChunkHeader req).chunkIndex]) :=
      fun hall => hmissing fun i hi => hrest.subset (hall i hi)
    obtain ⟨d, htake, hsame, hd⟩ := (takeChunk_first h maxParked id req hframed hnew hindex
      hpayload hdst (hroom c.next h.live.tracks.seen
        (next_notMem h.live.tracks h.live.steady))).2 hsome
    obtain ⟨W', e, he, hsame', hW', hcalls⟩ := ih (W ++ [chunkArrival req]) d hd
      hsame.totalChunks (indices_append _ _) hmissing
    refine ⟨W', e, he, ⟨hsame'.totalSize.trans hsame.totalSize,
      hsame'.totalChunks.trans hsame.totalChunks,
      hsame'.appMsgType.trans hsame.appMsgType⟩, hW', ?_⟩
    intro calls
    simp only [List.map_cons, List.cons_append, takeChunks, htake, hcalls]

theorem takeChunks_last {p : Nat → List UInt8} {id n maxParked : Nat}
    {seen seen' : List Nat} {last : List UInt8}
    (harr : Arrives id n maxParked p seen [last] seen') (W : List Arrival) (c : StreamContext)
    (h : Holds p initial W c) (hn : c.totalChunks = n) (hW : indices W = seen)
    (hmissing : ¬ CoversAll n seen) (hall : CoversAll n seen') :
    takeChunks maxParked (some c) [(false, last)] =
      [⟨.normal, some ⟨id, c.appMsgType, concat p n⟩⟩] := by
  cases harr with
  | again _ _ _ _ hframed hseen hrest =>
    cases hrest
    exact absurd hall hmissing
  | first _ _ _ _ hframed hnew hindex hpayload hdst hroom hrest =>
    cases hrest
    subst hW hn
    simp only [takeChunks, (takeChunk_first h maxParked id last hframed hnew hindex hpayload
      hdst (hroom c.next h.live.tracks.seen
        (next_notMem h.live.tracks h.live.steady))).1 hall]

/-- The blocks `q` at the offsets `dst` tile a stream of this shape. -/
def Tiles (q : Nat → List UInt8) (dst : Nat → Nat) (n totalSize : Nat) : Prop :=
  startOf q n = totalSize ∧ ∀ i, i < n → dst i = startOf q i

def OfFamily (q : Nat → List UInt8) (dst : Nat → Nat) (req : List UInt8) : Prop :=
  chunkPayload req = q (parseChunkHeader req).chunkIndex ∧
    (parseChunkHeader req).dstOffset = dst (parseChunkHeader req).chunkIndex

/-- A context that has only seen chunks of a family that does not tile it. -/
structure Spoilt (q : Nat → List UInt8) (dst : Nat → Nat) (initial : List UInt8)
    (W : List Arrival) (c : StreamContext) : Prop where
  live : Live initial W c
  family : ∀ a ∈ W, a.payload = q a.index ∧ a.dstOffset = dst a.index
  bad : ¬ Tiles q dst c.totalChunks c.totalSize

theorem takeChunk_spoilt {q : Nat → List UInt8} {dst : Nat → Nat} (h : Spoilt q dst initial W c)
    (maxParked : Nat) (allocFails : Bool) (req : List UInt8) (hreq : OfFamily q dst req) :
    (c.takeChunk maxParked allocFails req).2.delivered = none ∧
      ∀ d, (c.takeChunk maxParked allocFails req).1 = some d →
        ∃ W', Spoilt q dst initial W' d := by
  have hstays : ∀ d, some c = some d → ∃ W', Spoilt q dst initial W' d := by
    intro d hd
    cases hd
    exact ⟨W, h⟩
  simp only [StreamContext.takeChunk]
  split
  · exact ⟨rfl, hstays⟩
  · split
    · exact ⟨rfl, hstays⟩
    · next hindex =>
        cases hconsume : c.consume maxParked allocFails (parseChunkHeader req).chunkIndex
            (parseChunkHeader req).dstOffset (chunkPayload req) with
        | mk d outcome =>
          have htaken := tracks_consume h.live maxParked allocFails (chunkArrival req)
            (Nat.not_le.mp hindex) (length_chunkPayload_lt req) d outcome hconsume
          have hfamily : ∀ a ∈ W ++ [chunkArrival req],
              a.payload = q a.index ∧ a.dstOffset = dst a.index := by
            simpa [or_imp, forall_and] using
              ⟨⟨fun a ha => (h.family a ha).1, hreq.1⟩, fun a ha => (h.family a ha).2, hreq.2⟩
          cases outcome with
          | duplicate => exact ⟨rfl, hstays⟩
          | corrupt => exact ⟨rfl, by simp [StreamContext.settle]⟩
          | accepted =>
            obtain ⟨-, hsame, htracks, hsteady, hcases⟩ := htaken (by simp) (by simp)
            refine ⟨rfl, ?_⟩
            intro e he
            cases he
            refine ⟨_, ⟨htracks, hsteady, ?_⟩, hfamily, ?_⟩
            · cases hcases with
              | inl hgoes => exact hgoes.2
              | inr hends => cases hends.1
            · rw [hsame.totalChunks, hsame.totalSize]
              exact h.bad
          | complete data =>
            obtain ⟨-, hsame, htracks, -, hcases⟩ := htaken (by simp) (by simp)
            cases hcases with
            | inl hgoes => cases hgoes.1
            | inr hends =>
              have htiles := family_of_complete q dst htracks hends.2.1 hends.2.2 hfamily
              rw [hsame.totalChunks, hsame.totalSize] at htiles
              exact absurd htiles h.bad

theorem takeChunks_none (maxParked : Nat) (calls : List (Bool × List UInt8)) :
    takeChunks maxParked none calls = calls.map fun _ => .error := by
  induction calls with
  | nil => rfl
  | cons call calls ih => simp only [takeChunks, ih, List.map_cons]

/-- Chunks of a family that does not tile the stream deliver nothing, whatever
the order and however often they are repeated. -/
theorem takeChunks_spoilt {q : Nat → List UInt8} {dst : Nat → Nat} (maxParked : Nat)
    (calls : List (Bool × List UInt8)) (hcalls : ∀ call ∈ calls, OfFamily q dst call.2)
    (W : List Arrival) (c : StreamContext) (h : Spoilt q dst initial W c) :
    ∀ a ∈ takeChunks maxParked (some c) calls, a.delivered = none := by
  induction calls generalizing W c with
  | nil => simp [takeChunks]
  | cons call calls ih =>
    obtain ⟨hnone, hnext⟩ := takeChunk_spoilt h maxParked call.1 call.2
      (hcalls call List.mem_cons_self)
    intro a ha
    cases List.mem_cons.mp ha with
    | inl hhead => rw [hhead]; exact hnone
    | inr htail =>
      cases hd : (c.takeChunk maxParked call.1 call.2).1 with
      | none =>
        rw [hd, takeChunks_none] at htail
        obtain ⟨_, -, rfl⟩ := List.mem_map.mp htail
        rfl
      | some d =>
        obtain ⟨W', hW'⟩ := hnext d hd
        rw [hd] at htail
        exact ih (fun call hcall => hcalls call (List.mem_cons_of_mem _ hcall)) W' d hW'
          a htail

end Tracked

end ShmIpc.Stream
