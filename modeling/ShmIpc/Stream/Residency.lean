import ShmIpc.Stream.Isolation

/-!
What the destination of a stream holds while the stream is under way. The blocks of a
payload arrive in any order, each at its own offset, mixed with repetitions that carry
anything at all and with the traffic of other streams. After every message that leaves
the stream in flight, the blocks taken in so far lie where they belong, every other byte
is as it was allocated, and cursor and records account for exactly those blocks.
-/

namespace ShmIpc.Stream
open Library

/-- Chunk messages of stream `id` in any order: each block of `p` as it is, the first time,
and well-framed repetitions. From the indices taken in before to those taken in after. -/
inductive Offered (id n : Nat) (p : Nat → List UInt8) :
    List Nat → List (List UInt8) → List Nat → Prop
  | nil (seen : List Nat) : Offered id n p seen [] seen
  | again (seen seen' : List Nat) (req : List UInt8) (reqs : List (List UInt8))
      (hframed : Framed id req) (hseen : (parseChunkHeader req).chunkIndex ∈ seen)
      (hrest : Offered id n p seen reqs seen') : Offered id n p seen (req :: reqs) seen'
  | first (seen seen' : List Nat) (req : List UInt8) (reqs : List (List UInt8))
      (hframed : Framed id req) (hnew : (parseChunkHeader req).chunkIndex ∉ seen)
      (hindex : (parseChunkHeader req).chunkIndex < n)
      (hpayload : chunkPayload req = p (parseChunkHeader req).chunkIndex)
      (hdst : (parseChunkHeader req).dstOffset = startOf p (parseChunkHeader req).chunkIndex)
      (hrest : Offered id n p (seen ++ [(parseChunkHeader req).chunkIndex]) reqs seen') :
      Offered id n p seen (req :: reqs) seen'

/-- Byte `x` belongs to block `i`. -/
def InBlock (p : Nat → List UInt8) (i x : Nat) : Prop :=
  startOf p i ≤ x ∧ x < startOf p i + (p i).length

/-- A stream under way holds the blocks `accepted` of `d` and nothing else. -/
structure Resident (d : List UInt8) (p : Nat → List UInt8) (initial : List UInt8)
    (accepted : List Nat) (c : StreamContext) : Prop where
  blocks : ∀ i ∈ accepted, ∀ x, InBlock p i x → c.buf[x]? = d[x]?
  untouched : ∀ x, (∀ i ∈ accepted, ¬ InBlock p i x) → c.buf[x]? = initial[x]?
  offset : c.offset = startOf p c.next
  missing : c.next ∉ accepted
  least : ∀ i, i < c.next → i ∈ accepted
  ooo : ∀ i q, c.ooo.lookup i = some q ↔
    c.next < i ∧ i ∈ accepted ∧ q = ⟨startOf p i, (p i).length⟩

section Context

variable {initial : List UInt8} {W : List Arrival} {c d : StreamContext} {p : Nat → List UInt8}

theorem write_of_conforms (hp : Conforms p W) (a : Arrival) (ha : a ∈ W) :
    a.write = (startOf p a.index, p a.index) := by
  rw [Arrival.write, (hp a ha).1, (hp a ha).2]

theorem resident_of_holds (h : Holds p initial W c) :
    Resident (concat p c.totalChunks) p initial (indices W) c := by
  have ht := h.live.tracks
  have hinside : ∀ w ∈ W.map Arrival.write, w.1 + w.2.length ≤ initial.length := by
    intro w hw
    obtain ⟨a, ha, rfl⟩ := List.mem_map.mp hw
    rw [ht.initial_length]
    exact ht.inside a ha
  refine ⟨?_, ?_, ?_, next_notMem ht h.live.steady, ht.seen, ?_⟩
  · intro i hi x hx
    obtain ⟨a, ha, rfl⟩ := mem_indices.mp hi
    have hwrite := write_of_conforms h.conforms a ha
    rw [getElem?_concat p _ a.index x (ht.below a ha) hx, ht.buf_eq]
    have hbyte := getElem?_applyWrites_of_unique initial (W.map Arrival.write) hinside x a.write
      (List.mem_map_of_mem ha) (by rw [hwrite]; exact hx) ?_
    · rw [hbyte, hwrite]
    · intro v hv hcovers
      obtain ⟨b, hb, rfl⟩ := List.mem_map.mp hv
      rw [write_of_conforms h.conforms b hb] at hcovers ⊢
      rw [hwrite, block_unique p b.index a.index x hcovers hx]
  · intro x hx
    rw [ht.buf_eq]
    apply getElem?_applyWrites_untouched initial _ hinside
    intro w hw hcovers
    obtain ⟨a, ha, rfl⟩ := List.mem_map.mp hw
    rw [write_of_conforms h.conforms a ha] at hcovers
    exact hx a.index (mem_indices.mpr ⟨a, ha, rfl⟩) hcovers
  · rw [ht.offset_eq, h.conforms.startOf_next ht]
  · intro i q
    rw [ht.parked i q]
    constructor
    · rintro ⟨hle, a, ha, rfl, rfl⟩
      have hmem := mem_indices.mpr ⟨a, ha, rfl⟩
      have hne : c.next ≠ a.index := by
        intro heq
        exact next_notMem ht h.live.steady (heq ▸ hmem)
      refine ⟨by omega, hmem, ?_⟩
      rw [(h.conforms a ha).1, (h.conforms a ha).2]
    · rintro ⟨hlt, hmem, rfl⟩
      obtain ⟨a, ha, rfl⟩ := mem_indices.mp hmem
      refine ⟨Nat.le_of_lt hlt, a, ha, rfl, ?_⟩
      rw [(h.conforms a ha).1, (h.conforms a ha).2]

theorem takeChunk_offered (h : Holds p initial W c) (maxParked : Nat) (allocFails : Bool)
    {id : Nat} {req : List UInt8} (hframed : Framed id req)
    (hnew : (parseChunkHeader req).chunkIndex ∉ indices W)
    (hindex : (parseChunkHeader req).chunkIndex < c.totalChunks)
    (hpayload : chunkPayload req = p (parseChunkHeader req).chunkIndex)
    (hdst : (parseChunkHeader req).dstOffset = startOf p (parseChunkHeader req).chunkIndex)
    (hd : (c.takeChunk maxParked allocFails req).1 = some d) :
    SameStream c d ∧ Holds p initial (W ++ [chunkArrival req]) d := by
  rw [takeChunk_framed c maxParked allocFails id req hframed hindex] at hd
  cases hconsume : c.consume maxParked allocFails (parseChunkHeader req).chunkIndex
      (parseChunkHeader req).dstOffset (chunkPayload req) with
  | mk e outcome =>
    rw [hconsume] at hd
    cases outcome with
    | duplicate => exact absurd (mem_of_consume_duplicate h.live _ _ _ _ _ e hconsume).2 hnew
    | corrupt | complete data => cases hd
    | accepted =>
      cases hd
      obtain ⟨-, hsame, htracks, hsteady, hend⟩ := tracks_consume h.live maxParked allocFails
        (chunkArrival req) hindex (length_chunkPayload_lt req) d .accepted hconsume
        (by simp) (by simp)
      have hlt : d.next < d.totalChunks := by simpa using hend
      refine ⟨hsame, ⟨htracks, hsteady, hlt⟩, conforms_append h.conforms _ hpayload hdst, ?_⟩
      rw [hsame.totalChunks, hsame.totalSize]
      exact h.sum

end Context

/-- What the stream `id` holds, if it is in flight, once the blocks `seen` were offered. -/
def Fed (p : Nat → List UInt8) (initial : List UInt8) (id n : Nat) (seen : List Nat)
    (v : InFlight) : Prop :=
  ∀ c, v id = some c → c.totalChunks = n ∧ ∃ W, Holds p initial W c ∧ indices W = seen

section Fed

variable {p : Nat → List UInt8} {initial : List UInt8} {id n : Nat} {seen : List Nat}
  {v w : InFlight}

theorem Fed.kept (h : Fed p initial id n seen v) (hw : w id = v id ∨ w id = none) :
    Fed p initial id n seen w := by
  intro c hc
  cases hw with
  | inl hsame => exact h c (hsame ▸ hc)
  | inr hnone => rw [hnone] at hc; cases hc

/-- How the messages of the stream act on it. -/
def Takes (v w : InFlight) (id maxParked : Nat) (allocFails : Bool) (req : List UInt8) : Prop :=
  ∀ d, w id = some d → ∃ c, v id = some c ∧ (c.takeChunk maxParked allocFails req).1 = some d

variable {maxParked : Nat} {allocFails : Bool} {req : List UInt8}

theorem Fed.again (h : Fed p initial id n seen v) (hw : Takes v w id maxParked allocFails req)
    (hframed : Framed id req) (hseen : (parseChunkHeader req).chunkIndex ∈ seen) :
    Fed p initial id n seen w := by
  intro d hd
  obtain ⟨c, hc, htake⟩ := hw d hd
  obtain ⟨hn, W, hholds, hW⟩ := h c hc
  rw [takeChunk_again hholds.live maxParked allocFails id req hframed (hW ▸ hseen)] at htake
  cases htake
  exact ⟨hn, W, hholds, hW⟩

theorem Fed.first (h : Fed p initial id n seen v) (hw : Takes v w id maxParked allocFails req)
    (hframed : Framed id req) (hnew : (parseChunkHeader req).chunkIndex ∉ seen)
    (hindex : (parseChunkHeader req).chunkIndex < n)
    (hpayload : chunkPayload req = p (parseChunkHeader req).chunkIndex)
    (hdst : (parseChunkHeader req).dstOffset = startOf p (parseChunkHeader req).chunkIndex) :
    Fed p initial id n (seen ++ [(parseChunkHeader req).chunkIndex]) w := by
  intro d hd
  obtain ⟨c, hc, htake⟩ := hw d hd
  obtain ⟨hn, W, hholds, hW⟩ := h c hc
  subst hn hW
  obtain ⟨hsame, hnext⟩ :=
    takeChunk_offered hholds maxParked allocFails hframed hnew hindex hpayload hdst htake
  exact ⟨hsame.totalChunks, _, hnext, indices_append _ _⟩

theorem Fed.resident {d : List UInt8} (h : Fed p initial id n seen v) (hd : concat p n = d)
    (c : StreamContext) (hc : v id = some c) : Resident d p initial seen c := by
  obtain ⟨hn, W, hholds, hW⟩ := h c hc
  have hres := resident_of_holds hholds
  rw [hn, hd, hW] at hres
  exact hres

end Fed

theorem Step.frame {v w : InFlight} {x : Exchange} (h : Step v x w) (id : Nat)
    (hx : x.ofStream id = false) : w id = v id ∨ w id = none := by
  have hother : ∀ i, x.msgType = .streamStart ∨ x.msgType = .streamChunk →
      messageStream x.req = i → i ≠ id := by
    rintro i hm rfl rfl
    cases hm with
    | inl hm => simp [Exchange.ofStream, isOfStream, hm] at hx
    | inr hm => simp [Exchange.ofStream, isOfStream, hm] at hx
  cases h with
  | ignored | empty | repeated => exact Or.inl rfl
  | refused w m req hw => exact hw id
  | opened w req buf hbuf hsize hchunks hw =>
    have hne : (parseStreamHeader req).streamId ≠ id := hother _ (Or.inl rfl) rfl
    rw [Function.update_of_ne hne.symm]
    exact hw id
  | accepted req c d maxParked allocFails hc hindex hd
  | completed req data c d maxParked allocFails hc hindex hd =>
    exact Or.inl (Function.update_of_ne (Ne.symm (hother _ (Or.inr rfl) rfl)) _ _)

theorem fed_opened {p : Nat → List UInt8} {req buf : List UInt8} {v : InFlight}
    (hlive : Live buf [] (openedContext req buf))
    (hsum : startOf p (parseStreamHeader req).totalChunks = (parseStreamHeader req).totalSize)
    (hv : v (parseStreamHeader req).streamId = some (openedContext req buf)) :
    Fed p buf (parseStreamHeader req).streamId (parseStreamHeader req).totalChunks [] v := by
  intro c hc
  rw [hv] at hc
  cases hc
  exact ⟨rfl, [], ⟨hlive, by simp [Conforms], hsum⟩, rfl⟩

theorem live_openedContext {maxStreamSize maxStreamChunks : Nat} {req buf : List UInt8}
    (hkind : startKind maxStreamSize maxStreamChunks req = .opening)
    (hsize : maxStreamSize ≤ 2 ^ 30) (hbuf : buf.length = (parseStreamHeader req).totalSize) :
    Live buf [] (openedContext req buf) := by
  obtain ⟨-, hle, -, hpos⟩ := startKind_opening_iff.mp hkind
  exact live_fresh _ _ _ buf hbuf (hle.trans hsize) (parseStreamHeader_inRange req).totalChunks hpos

theorem opening_of_ne_malformed {maxStreamSize maxStreamChunks : Nat} {req : List UInt8}
    (hkind : startKind maxStreamSize maxStreamChunks req ≠ .malformed)
    (hchunks : 1 ≤ (parseStreamHeader req).totalChunks) :
    startKind maxStreamSize maxStreamChunks req = .opening := by
  obtain ⟨hlen, hsize, hcount, -⟩ := startKind_ne_malformed_iff.mp hkind
  exact startKind_opening_iff.mpr ⟨hlen, hsize, hcount, hchunks⟩

namespace Cpp

def Event.req : Event → List UInt8
  | .message _ _ req => req
  | .prune _ => []

namespace StreamReassembler

variable (r : StreamReassembler) (env : Surroundings) (req : List UInt8)

theorem inFlight_accepted (h : (r.handleStart env req).2.reply = .normal)
    (hchunks : 1 ≤ (parseStreamHeader req).totalChunks) :
    startKind r.config.maxStreamSize r.config.maxStreamChunks req = .opening ∧
      (r.handleStart env req).1.inFlight (parseStreamHeader req).streamId =
        some (openedContext req (env.newBuf (parseStreamHeader req).totalSize).toList) := by
  have hkind := opening_of_ne_malformed (r.startKind_of_normal env req h) hchunks
  refine ⟨hkind, ?_⟩
  rw [handleStart_eq, hkind] at h ⊢
  cases r.openStream_cases env req with
  | inl hrefused =>
    simp only [hrefused.2] at h
    cases h
  | inr hopened =>
    simp only [hopened.2, inFlight_insert, Function.update_self]

theorem takes_handleChunk : Takes r.inFlight (r.handleChunk env req).1.inFlight
    (parseChunkHeader req).streamId r.config.maxParkedChunks env.allocFails req := by
  intro d hd
  cases hc : r.inFlight (parseChunkHeader req).streamId with
  | none =>
    rw [handleChunk_unknown r env req hc, hc] at hd
    cases hd
  | some c =>
    refine ⟨c, rfl, ?_⟩
    rw [← handleChunk_known r env req c hc]
    exact hd

theorem fed_run {p : Nat → List UInt8} {initial : List UInt8} {id n : Nat}
    (events : List Event) {seen seen' : List Nat} {r : StreamReassembler}
    (hsize : r.config.maxStreamSize ≤ 2 ^ 30) (hfed : Fed p initial id n seen r.inFlight)
    (hchunks : ∀ env m req, .message env m req ∈ events → isOfStream id m req = true →
      m = .streamChunk)
    (hoffered : Offered id n p seen ((events.filter (Event.ofStream id)).map Event.req) seen') :
    Fed p initial id n seen' (r.run events).1.inFlight := by
  induction events generalizing r seen with
  | nil =>
    cases hoffered
    exact hfed
  | cons e events ih =>
    have hlater := fun env m req hmem => hchunks env m req (List.mem_cons_of_mem e hmem)
    have hconfig : (r.apply e).1.config.maxStreamSize ≤ 2 ^ 30 := by
      rw [config_apply r e hsize]
      exact hsize
    cases hof : e.ofStream id with
    | false =>
      rw [List.filter_cons_of_neg (by rw [hof]; simp)] at hoffered
      refine ih hconfig (hfed.kept ?_) hlater hoffered
      cases e with
      | prune now => exact discards_pruneInternal r now id
      | message env m req => exact (handle_step r env m req hsize).1.frame id hof
    | true =>
      rw [List.filter_cons_of_pos hof, List.map_cons] at hoffered
      cases e with
      | prune now => cases hof
      | message env m req =>
        obtain rfl := hchunks env m req List.mem_cons_self hof
        have hid : messageStream req = id := by
          simpa [Event.ofStream, isOfStream] using hof
        have htakes := takes_handleChunk r env req
        rw [streamId_of_chunk, hid] at htakes
        cases hoffered with
        | again _ _ _ _ hframed hseen hrest =>
          exact ih hconfig (hfed.again htakes hframed hseen) hlater hrest
        | first _ _ _ _ hframed hnew hindex hpayload hdst hrest =>
          exact ih hconfig (hfed.first htakes hframed hnew hindex hpayload hdst) hlater
            hrest

end StreamReassembler

end Cpp

namespace Go.Reassembler

variable (s : Reassembler) (env : Surroundings) (req : List UInt8)

theorem inFlight_accepted (hq : s.Quiet) (h : (s.handleStart env req).2.reply = .normal)
    (hchunks : 1 ≤ (parseStreamHeader req).totalChunks) :
    startKind (2 ^ 30) (2 ^ 20) req = .opening ∧
      (s.handleStart env req).1.inFlight (parseStreamHeader req).streamId =
        some (openedContext req (env.newBuf (parseStreamHeader req).totalSize).toList) := by
  have hkind := opening_of_ne_malformed ((s.handleStart_normal_iff env req).mp h) hchunks
  refine ⟨hkind, ?_⟩
  rw [handleStart_eq, MaxStreamSize, MaxStreamChunks, hkind]
  simp only [inFlight_openStream s env req hq, Function.update_self]

theorem takes_handleChunk (hq : s.Quiet) : Takes s.inFlight (s.handleChunk req).1.inFlight
    (parseChunkHeader req).streamId MaxParkedChunks false req := by
  intro d hd
  cases hc : s.inFlight (parseChunkHeader req).streamId with
  | none =>
    rw [handleChunk_unknown s req hq hc, hc] at hd
    cases hd
  | some c =>
    refine ⟨c, rfl, ?_⟩
    rw [← handleChunk_known s req hq c hc]
    exact hd

theorem fed_run {p : Nat → List UInt8} {initial : List UInt8} {id n : Nat}
    (events : List Event) {seen seen' : List Nat} {s : Reassembler} (hq : s.Quiet)
    (hfed : Fed p initial id n seen s.inFlight)
    (hchunks : ∀ e ∈ events, e.ofStream id = true → e.msgType = .streamChunk)
    (hoffered : Offered id n p seen ((events.filter (Event.ofStream id)).map Event.req) seen') :
    Fed p initial id n seen' (s.run events).1.inFlight := by
  induction events generalizing s seen with
  | nil =>
    cases hoffered
    exact hfed
  | cons e events ih =>
    have hlater := fun e' hmem => hchunks e' (List.mem_cons_of_mem e hmem)
    obtain ⟨hstep, hquiet⟩ := handler_step s e.env e.msgType e.req hq
    cases hof : e.ofStream id with
    | false =>
      rw [List.filter_cons_of_neg (by rw [hof]; simp)] at hoffered
      exact ih hquiet (hfed.kept (hstep.frame id hof)) hlater hoffered
    | true =>
      rw [List.filter_cons_of_pos hof, List.map_cons] at hoffered
      obtain ⟨env, m, req⟩ := e
      obtain rfl := hchunks _ List.mem_cons_self hof
      have hid : messageStream req = id := by
        simpa [Event.ofStream, isOfStream] using hof
      have htakes := takes_handleChunk s req hq
      rw [streamId_of_chunk, hid] at htakes
      cases hoffered with
      | again _ _ _ _ hframed hseen hrest =>
        exact ih hquiet (hfed.again htakes hframed hseen) hlater hrest
      | first _ _ _ _ hframed hnew hindex hpayload hdst hrest =>
        exact ih hquiet (hfed.first htakes hframed hnew hindex hpayload hdst) hlater hrest

end Go.Reassembler

/-- From any state either reassembler can reach, a stream is opened for the payload `d` and
its blocks are offered in any order, among repetitions and the traffic of other streams.
As long as it is in flight, its destination holds the blocks offered so far in their
places and its allocated bytes elsewhere, and cursor and records account for them. -/
theorem blocks_resident :
    (∀ (cfg : Cpp.StreamReassemblerConfig) (events : List Cpp.Event) (env : Cpp.Surroundings)
        (req : List UInt8),
      (((Cpp.StreamReassembler.construct cfg).run events).1.handle env .streamStart req).2.map
        Answer.reply = some .normal →
      1 ≤ (parseStreamHeader req).totalChunks →
      ∀ (d : List UInt8) (p : Nat → List UInt8),
      d.length = (parseStreamHeader req).totalSize →
      concat p (parseStreamHeader req).totalChunks = d →
      ∀ (later : List Cpp.Event) (seen : List Nat),
      (∀ env m req', .message env m req' ∈ later →
        isOfStream (parseStreamHeader req).streamId m req' = true → m = .streamChunk) →
      Offered (parseStreamHeader req).streamId (parseStreamHeader req).totalChunks p []
        ((later.filter (Cpp.Event.ofStream (parseStreamHeader req).streamId)).map Cpp.Event.req)
        seen →
      ∀ c, ((((Cpp.StreamReassembler.construct cfg).run events).1.handle env .streamStart
          req).1.run later).1.inFlight (parseStreamHeader req).streamId = some c →
        Resident d p (env.newBuf (parseStreamHeader req).totalSize).toList seen c) ∧
    ∀ (timeout : Int) (events : List Go.Event) (env : Go.Surroundings) (req : List UInt8),
      (((Go.Reassembler.new timeout).run events).1.handler env .streamStart req).2.map
        Answer.reply = some .normal →
      1 ≤ (parseStreamHeader req).totalChunks →
      ∀ (d : List UInt8) (p : Nat → List UInt8),
      d.length = (parseStreamHeader req).totalSize →
      concat p (parseStreamHeader req).totalChunks = d →
      ∀ (later : List Go.Event) (seen : List Nat),
      (∀ e ∈ later, e.ofStream (parseStreamHeader req).streamId = true →
        e.msgType = .streamChunk) →
      Offered (parseStreamHeader req).streamId (parseStreamHeader req).totalChunks p []
        ((later.filter (Go.Event.ofStream (parseStreamHeader req).streamId)).map Go.Event.req)
        seen →
      ∀ c, ((((Go.Reassembler.new timeout).run events).1.handler env .streamStart
          req).1.run later).1.inFlight (parseStreamHeader req).streamId = some c →
        Resident d p (env.newBuf (parseStreamHeader req).totalSize).toList seen c := by
  constructor
  · intro cfg events env req haccepted hpos d p hlen hd later seen hchunks hoffered c hc
    obtain ⟨-, hconfig⟩ := Cpp.StreamReassembler.history_run cfg events
    have hsize := Cpp.StreamReassembler.clamp_maxStreamSize cfg
    rw [← hconfig] at hsize
    have hnormal := Option.some.inj haccepted
    obtain ⟨hkind, hflight⟩ := Cpp.StreamReassembler.inFlight_accepted _ env req hnormal hpos
    have hsum : startOf p (parseStreamHeader req).totalChunks =
        (parseStreamHeader req).totalSize := by rw [← length_concat, hd, hlen]
    have hfed := fed_opened (live_openedContext hkind hsize (by simp)) hsum hflight
    have hconfig' := (Cpp.StreamReassembler.handleStart_step _ env req hsize).2
    exact (Cpp.StreamReassembler.fed_run later (by rw [hconfig']; exact hsize) hfed hchunks
      hoffered).resident hd c hc
  · intro timeout events env req haccepted hpos d p hlen hd later seen hchunks hoffered c hc
    obtain ⟨-, hquiet⟩ := Go.Reassembler.history_run timeout events
    have hnormal := Option.some.inj haccepted
    obtain ⟨hkind, hflight⟩ := Go.Reassembler.inFlight_accepted _ env req hquiet hnormal hpos
    have hsum : startOf p (parseStreamHeader req).totalChunks =
        (parseStreamHeader req).totalSize := by rw [← length_concat, hd, hlen]
    have hfed := fed_opened (live_openedContext hkind (Nat.le_refl _) (by simp)) hsum hflight
    have hquiet' := (Go.Reassembler.handler_step _ env .streamStart req hquiet).2
    exact (Go.Reassembler.fed_run later hquiet' hfed hchunks hoffered).resident hd c hc

theorem twoBlocks_offered :
    Offered (parseStreamHeader twoBlocksStart).streamId
      (parseStreamHeader twoBlocksStart).totalChunks twoBlocks [] [secondBlock, secondBlockAgain]
      [1] := by
  have hstart : parseStreamHeader twoBlocksStart = ⟨7, 3, 2, 9⟩ := by decide
  rw [hstart]
  refine .first _ _ _ _ ⟨by decide, by decide⟩ (by decide) (by decide) (by decide) (by decide) ?_
  exact .again _ _ _ _ ⟨by decide, by decide⟩ (by decide) (.nil _)

theorem blocks_resident_twoBlocks :
    (∃ c, (((Cpp.StreamReassembler.construct {}).handle zeroHost .streamStart twoBlocksStart).1.run
        [.message zeroHost .streamChunk secondBlock,
          .message zeroHost .streamChunk secondBlockAgain]).1.inFlight
          (parseStreamHeader twoBlocksStart).streamId = some c ∧
      Resident [1, 2, 3] twoBlocks
        (zeroHost.newBuf (parseStreamHeader twoBlocksStart).totalSize).toList [1] c) ∧
    ∃ c, (((Go.Reassembler.new 0).handler zeroGuest .streamStart twoBlocksStart).1.run
        [⟨zeroGuest, .streamChunk, secondBlock⟩,
          ⟨zeroGuest, .streamChunk, secondBlockAgain⟩]).1.inFlight
          (parseStreamHeader twoBlocksStart).streamId = some c ∧
      Resident [1, 2, 3] twoBlocks
        (zeroGuest.newBuf (parseStreamHeader twoBlocksStart).totalSize).toList [1] c := by
  constructor
  · obtain ⟨c, hc⟩ := Option.isSome_iff_exists.mp (show (Option.isSome
      ((((Cpp.StreamReassembler.construct {}).handle zeroHost .streamStart twoBlocksStart).1.run
        [.message zeroHost .streamChunk secondBlock,
          .message zeroHost .streamChunk secondBlockAgain]).1.inFlight
          (parseStreamHeader twoBlocksStart).streamId)) = true by decide)
    refine ⟨c, hc, blocks_resident.1 {} [] zeroHost twoBlocksStart (by decide) (by decide)
      [1, 2, 3] twoBlocks (by decide) (by decide) [.message zeroHost .streamChunk secondBlock,
        .message zeroHost .streamChunk secondBlockAgain] [1] ?_ twoBlocks_offered c hc⟩
    intro env m req hmem _
    simp only [List.mem_cons, Cpp.Event.message.injEq, List.not_mem_nil, or_false] at hmem
    cases hmem with
    | inl hfirst => exact hfirst.2.1
    | inr hsecond => exact hsecond.2.1
  · obtain ⟨c, hc⟩ := Option.isSome_iff_exists.mp (show (Option.isSome
      ((((Go.Reassembler.new 0).handler zeroGuest .streamStart twoBlocksStart).1.run
        [⟨zeroGuest, .streamChunk, secondBlock⟩,
          ⟨zeroGuest, .streamChunk, secondBlockAgain⟩]).1.inFlight
          (parseStreamHeader twoBlocksStart).streamId)) = true by decide)
    refine ⟨c, hc, blocks_resident.2 0 [] zeroGuest twoBlocksStart (by decide) (by decide)
      [1, 2, 3] twoBlocks (by decide) (by decide) [⟨zeroGuest, .streamChunk, secondBlock⟩,
        ⟨zeroGuest, .streamChunk, secondBlockAgain⟩] [1] ?_ twoBlocks_offered c hc⟩
    intro e hmem _
    simp only [List.mem_cons, List.not_mem_nil, or_false] at hmem
    cases hmem with
    | inl hfirst => rw [hfirst]
    | inr hsecond => rw [hsecond]

end ShmIpc.Stream
