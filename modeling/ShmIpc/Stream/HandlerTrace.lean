import ShmIpc.Stream.HandlerRuns

/-!
What the trace of concurrent handler calls tells about the contexts: an unfinished
context has taken in exactly the chunks acknowledged for it, a finished one was delivered
at most once and with all of them.
-/

namespace ShmIpc.Stream.Go
open Library

variable {Tid : Type}

namespace HandlerEvent

def ref : HandlerEvent → Option Nat
  | .stamped => none
  | .acknowledged ref _ | .dropped ref => some ref
  | .delivered ref _ => ref

def arrivalAt (ref : Nat) : HandlerEvent → Option Arrival
  | .acknowledged q req => if q = ref then some (chunkArrival req) else none
  | _ => none

def deliveryOf (ref : Nat) : HandlerEvent → Option Delivery
  | .delivered (some q) d => if q = ref then some d else none
  | _ => none

theorem arrivalAt_of_ne {e : HandlerEvent} {ref : Nat} (h : e.ref ≠ some ref) :
    e.arrivalAt ref = none := by
  cases e with
  | stamped | dropped | delivered => rfl
  | acknowledged q req => exact if_neg fun heq => h (by rw [heq]; rfl)

theorem deliveryOf_of_ne {e : HandlerEvent} {ref : Nat} (h : e.ref ≠ some ref) :
    e.deliveryOf ref = none := by
  cases e with
  | stamped | dropped | acknowledged => rfl
  | delivered q d =>
    cases q with
    | none => rfl
    | some q => exact if_neg fun heq => h (by rw [heq]; rfl)

end HandlerEvent

/-- The chunks acknowledged for a context, in order, repetitions included. -/
def arrivals (trace : List HandlerEvent) (ref : Nat) : List Arrival :=
  trace.filterMap (HandlerEvent.arrivalAt ref)

def deliveries (trace : List HandlerEvent) (ref : Nat) : List Delivery :=
  trace.filterMap (HandlerEvent.deliveryOf ref)

theorem arrivals_append (trace : List HandlerEvent) {events : List HandlerEvent} {ref : Nat}
    (h : ∀ e ∈ events, e.arrivalAt ref = none) :
    arrivals (trace ++ events) ref = arrivals trace ref := by
  rw [arrivals, List.filterMap_append, List.filterMap_eq_nil_iff.mpr h, List.append_nil, arrivals]

theorem deliveries_append (trace : List HandlerEvent) {events : List HandlerEvent} {ref : Nat}
    (h : ∀ e ∈ events, e.deliveryOf ref = none) :
    deliveries (trace ++ events) ref = deliveries trace ref := by
  rw [deliveries, List.filterMap_append, List.filterMap_eq_nil_iff.mpr h, List.append_nil,
    deliveries]

theorem arrivals_append_of_ne (trace : List HandlerEvent) (e : HandlerEvent) (ref : Nat)
    (h : e.ref ≠ some ref) : arrivals (trace ++ [e]) ref = arrivals trace ref :=
  arrivals_append trace (List.forall_mem_singleton.mpr (HandlerEvent.arrivalAt_of_ne h))

theorem deliveries_append_of_ne (trace : List HandlerEvent) (e : HandlerEvent) (ref : Nat)
    (h : e.ref ≠ some ref) : deliveries (trace ++ [e]) ref = deliveries trace ref :=
  deliveries_append trace (List.forall_mem_singleton.mpr (HandlerEvent.deliveryOf_of_ne h))

theorem deliveries_append_self (trace : List HandlerEvent) (ref : Nat) (d : Delivery) :
    deliveries (trace ++ [.delivered (some ref) d]) ref = deliveries trace ref ++ [d] := by
  rw [deliveries, List.filterMap_append, deliveries]
  congr 1
  exact List.filterMap_cons_some (if_pos rfl)

theorem mem_deliveries {trace : List HandlerEvent} {ref : Nat} {d : Delivery} :
    d ∈ deliveries trace ref ↔ .delivered (some ref) d ∈ trace := by
  simp only [deliveries, List.mem_filterMap]
  constructor
  · rintro ⟨e, he, hd⟩
    cases e with
    | stamped | dropped | acknowledged => cases hd
    | delivered q d' =>
      cases q with
      | none => cases hd
      | some q =>
        simp only [HandlerEvent.deliveryOf] at hd
        split at hd
        · next hq =>
            cases hd
            rw [← hq]
            exact he
        · cases hd
  · intro he
    exact ⟨_, he, if_pos rfl⟩

theorem arrivals_eq_nil {trace : List HandlerEvent} {ref : Nat}
    (h : ∀ req, .acknowledged ref req ∉ trace) : arrivals trace ref = [] := by
  rw [arrivals, List.filterMap_eq_nil_iff]
  intro e he
  cases e with
  | stamped | dropped | delivered => rfl
  | acknowledged q req =>
    apply if_neg
    rintro rfl
    exact h req he

/-- The log of a context agrees with its first arrivals. -/
structure Logged (log W : List Arrival) : Prop where
  known : ∀ i, i ∈ indices log ↔ i ∈ indices W
  first : ∀ i, payloadAt log i = payloadAt W i

theorem payloadAt_append_of_mem {log : List Arrival} (a : Arrival) {i : Nat}
    (h : i ∈ indices log) : payloadAt (log ++ [a]) i = payloadAt log i := by
  obtain ⟨b, hb, hi⟩ := mem_indices.mp h
  have hsome : (log.find? fun a => a.index = i).isSome = true := by
    rw [List.find?_isSome]
    exact ⟨b, hb, by simpa using hi⟩
  obtain ⟨d, hd⟩ := Option.isSome_iff_exists.mp hsome
  simp only [payloadAt, List.find?_append, hd, Option.some_or]

theorem payloadAt_append_self {log : List Arrival} (a : Arrival) (h : a.index ∉ indices log) :
    payloadAt (log ++ [a]) a.index = a.payload := by
  have hnone : (log.find? fun b => b.index = a.index) = none := by
    rw [List.find?_eq_none]
    intro b hb heq
    exact h (mem_indices.mpr ⟨b, hb, by simpa using heq⟩)
  simp [payloadAt, List.find?_append, hnone]

theorem indices_append_iff (log : List Arrival) (a : Arrival) (i : Nat) :
    i ∈ indices (log ++ [a]) ↔ i ∈ indices log ∨ i = a.index := by
  simp [indices]

theorem Logged.again {log W : List Arrival} (h : Logged log W) (a : Arrival)
    (hseen : a.index ∈ indices W) : Logged (log ++ [a]) W := by
  constructor
  · intro i
    rw [indices_append_iff, h.known i]
    constructor
    · rintro (hi | rfl)
      · exact hi
      · exact hseen
    · exact Or.inl
  · intro i
    by_cases hi : i = a.index
    · rw [hi, payloadAt_append_of_mem a ((h.known _).mpr hseen)]
      exact h.first _
    · rw [payloadAt_append_ne log a i hi]
      exact h.first i

theorem Logged.take {log W : List Arrival} (h : Logged log W) (a : Arrival)
    (hnew : a.index ∉ indices W) : Logged (log ++ [a]) (W ++ [a]) := by
  constructor
  · intro i
    rw [indices_append_iff, indices_append_iff, h.known i]
  · intro i
    by_cases hi : i = a.index
    · rw [hi, payloadAt_append_self a fun hmem => hnew ((h.known _).mp hmem),
        payloadAt_append_self a hnew]
    · rw [payloadAt_append_ne log a i hi, payloadAt_append_ne W a i hi]
      exact h.first i

/-- A finished context whose bytes are those of its acknowledged chunks: the first one
of each index, in index order, and all indices. -/
def Whole (s : HandlerSystem Tid) (ref : Nat) (data : List UInt8) : Prop :=
  ∃ c, s.reassembler.heap ref = some c ∧ c.done = true ∧ c.buf = data ∧
    data = concat (payloadAt (arrivals s.trace ref)) c.totalChunks ∧
    data.length = c.totalSize ∧
    ∀ i, i < c.totalChunks → i ∈ indices (arrivals s.trace ref)

/-- A completed context's bytes on their way to the callback. -/
def HandlerPc.carried : HandlerPc → Option (Nat × List UInt8)
  | .retiring _ ref (some data) => some (ref, data)
  | .delivering (some ref) d => some (ref, d.data)
  | _ => none

structure Told (s : HandlerSystem Tid) : Prop where
  unfinished : ∀ ref c, s.reassembler.heap ref = some c → c.done = false →
    ∃ initial W, Live initial W c.toStreamContext ∧ Logged (arrivals s.trace ref) W
  known : ∀ ref req, .acknowledged ref req ∈ s.trace → ref < s.reassembler.allocated
  delivered : ∀ ref d, .delivered (some ref) d ∈ s.trace → Whole s ref d.data
  carried : ∀ t ref data, (s.thread t).carried = some (ref, data) → Whole s ref data
  pending : ∀ t ref, (s.thread t).owned = some ref → deliveries s.trace ref = []
  once : ∀ ref, (deliveries s.trace ref).length ≤ 1
  dropped : ∀ ref, .dropped ref ∈ s.trace → ∃ c, s.reassembler.heap ref = some c ∧ c.done = true

/-- Nothing a step does changes a finished context or its log. -/
def Frozen (s s' : HandlerSystem Tid) : Prop :=
  ∀ ref c, s.reassembler.heap ref = some c → c.done = true →
    (∃ c', s'.reassembler.heap ref = some c' ∧ c'.toStreamContext = c.toStreamContext ∧
      c'.done = true) ∧ arrivals s'.trace ref = arrivals s.trace ref

theorem Whole.frozen {s s' : HandlerSystem Tid} {ref : Nat} {data : List UInt8}
    (h : Whole s ref data) (hfrozen : Frozen s s') : Whole s' ref data := by
  obtain ⟨c, hc, hdone, hbuf, hdata, hlength, hall⟩ := h
  obtain ⟨⟨c', hc', hsame, hdone'⟩, hlog⟩ := hfrozen ref c hc hdone
  refine ⟨c', hc', hdone', ?_, ?_, ?_, ?_⟩
  · rw [hsame]
    exact hbuf
  · rw [hlog, hsame]
    exact hdata
  · rw [hsame]
    exact hlength
  · rw [hlog, hsame]
    exact hall

/-- Steps that bring no chunk into a context. -/
structure Calm (s s' : HandlerSystem Tid) : Prop where
  kept : ∀ ref c, s.reassembler.heap ref = some c → ∃ c', s'.reassembler.heap ref = some c' ∧
    c'.toStreamContext = c.toStreamContext ∧ c'.done = c.done
  created : ∀ ref c', s'.reassembler.heap ref = some c' → ref < s.reassembler.allocated ∨
    ∃ initial, Live initial [] c'.toStreamContext
  allocated : s.reassembler.allocated ≤ s'.reassembler.allocated

theorem Calm.of_eq {s s' : HandlerSystem Tid} (hs : Seated s)
    (hheap : s'.reassembler.heap = s.reassembler.heap)
    (halloc : s'.reassembler.allocated = s.reassembler.allocated) : Calm s s' := by
  refine ⟨?_, ?_, Nat.le_of_eq halloc.symm⟩
  · intro ref c hc
    exact ⟨c, by rw [hheap, hc], rfl, rfl⟩
  · intro ref c' hc'
    rw [hheap] at hc'
    exact Or.inl (hs.sane.below hc')

section Calm

variable [DecidableEq Tid] {s s' : HandlerSystem Tid} {t : Tid} {r : Reassembler} {locked : Nat → Bool}
  {pc : HandlerPc} {events : List HandlerEvent}

theorem frozen_of_calm (hcalm : Calm s (s.move t r locked pc events))
    (hevents : ∀ e ∈ events, ∀ ref, HandlerEvent.arrivalAt ref e = none) :
    Frozen s (s.move t r locked pc events) := by
  intro ref c hc hdone
  obtain ⟨c', hc', hsame, hdone'⟩ := hcalm.kept ref c hc
  exact ⟨⟨c', hc', hsame, hdone'.trans hdone⟩,
    arrivals_append s.trace fun e he => hevents e he ref⟩

theorem Told.calm (h : Told s) (hs : Seated s) (hcalm : Calm s (s.move t r locked pc events))
    (hevents : ∀ e ∈ events, e.ref = none)
    (hcarried : ∀ ref data, pc.carried = some (ref, data) →
      (s.thread t).carried = some (ref, data))
    (hpending : ∀ ref, pc.owned = some ref → (s.thread t).owned = some ref ∨
      ref = s.reassembler.allocated ∨ ∃ c, s.reassembler.heap ref = some c ∧ c.done = false) :
    Told (s.move t r locked pc events) := by
  have hforeign : ∀ e ∈ events, ∀ ref, e.ref ≠ some ref := by
    intro e he ref href
    rw [hevents e he] at href
    cases href
  have hfrozen := frozen_of_calm hcalm fun e he ref =>
    HandlerEvent.arrivalAt_of_ne (hforeign e he ref)
  have hmem : ∀ e ref, e.ref = some ref →
      (e ∈ (s.move t r locked pc events).trace ↔ e ∈ s.trace) := by
    intro e ref href
    simp only [HandlerSystem.move, List.mem_append]
    constructor
    · rintro (hold | hnew)
      · exact hold
      · exact absurd href (hforeign e hnew ref)
    · exact Or.inl
  have harrivals : ∀ ref, arrivals (s.move t r locked pc events).trace ref =
      arrivals s.trace ref := fun ref =>
    arrivals_append s.trace fun e he => HandlerEvent.arrivalAt_of_ne (hforeign e he ref)
  have hdeliveries : ∀ ref, deliveries (s.move t r locked pc events).trace ref =
      deliveries s.trace ref := fun ref =>
    deliveries_append s.trace fun e he => HandlerEvent.deliveryOf_of_ne (hforeign e he ref)
  refine ⟨?_, ?_, ?_, ?_, ?_, ?_, ?_⟩
  · intro ref c' hc' hdone'
    rw [harrivals]
    by_cases hold : ref < s.reassembler.allocated
    · obtain ⟨c, hc⟩ := Option.isSome_iff_exists.mp ((hs.sane.stored ref).mpr hold)
      obtain ⟨c'', hc'', hsame, hdone⟩ := hcalm.kept ref c hc
      rw [hc'] at hc''
      cases hc''
      rw [hsame]
      exact h.unfinished ref c hc (hdone ▸ hdone')
    · obtain ⟨initial, hlive⟩ := (hcalm.created ref c' hc').resolve_left hold
      refine ⟨initial, [], hlive, ?_⟩
      rw [arrivals_eq_nil fun req hreq => hold (h.known ref req hreq)]
      exact ⟨fun _ => Iff.rfl, fun _ => rfl⟩
  · intro ref req hreq
    exact Nat.lt_of_lt_of_le (h.known ref req ((hmem _ ref rfl).mp hreq)) hcalm.allocated
  · intro ref d hd
    exact (h.delivered ref d ((hmem _ ref rfl).mp hd)).frozen hfrozen
  · intro u ref data hu
    by_cases hut : u = t
    · rw [hut, move_self] at hu
      exact (h.carried t ref data (hcarried ref data hu)).frozen hfrozen
    · rw [move_other s t r locked pc events hut] at hu
      exact (h.carried u ref data hu).frozen hfrozen
  · intro u ref hu
    rw [hdeliveries]
    by_cases hut : u = t
    · rw [hut, move_self] at hu
      rcases hpending ref hu with howned | rfl | ⟨c, hc, hdone⟩
      · exact h.pending t ref howned
      · rw [List.eq_nil_iff_forall_not_mem]
        intro d hd
        obtain ⟨c, hc, -⟩ := h.delivered _ d (mem_deliveries.mp hd)
        exact Nat.lt_irrefl _ (hs.sane.below hc)
      · rw [List.eq_nil_iff_forall_not_mem]
        intro d hd
        obtain ⟨c', hc', hdone', -⟩ := h.delivered _ d (mem_deliveries.mp hd)
        rw [hc] at hc'
        cases hc'
        rw [hdone] at hdone'
        cases hdone'
    · rw [move_other s t r locked pc events hut] at hu
      exact h.pending u ref hu
  · intro ref
    rw [hdeliveries]
    exact h.once ref
  · intro ref href
    obtain ⟨c, hc, hdone⟩ := h.dropped ref ((hmem _ ref rfl).mp href)
    obtain ⟨⟨c', hc', -, hdone'⟩, -⟩ := hfrozen ref c hc hdone
    exact ⟨c', hc', hdone'⟩

end Calm

section Deliver

variable [DecidableEq Tid] {s : HandlerSystem Tid} {t : Tid}

theorem frozen_deliver (hs : Seated s) (ref : Option Nat) (d : Delivery) :
    Frozen s (s.move t s.reassembler s.locked (.answering .normal) [.delivered ref d]) := by
  apply frozen_of_calm (Calm.of_eq hs rfl rfl)
  intro e he q
  rw [List.mem_singleton.mp he]
  rfl

theorem told_deliver (h : Told s) (hs : Seated s) (ref : Nat) (d : Delivery)
    (hpc : s.thread t = .delivering (some ref) d) :
    Told (s.move t s.reassembler s.locked (.answering .normal) [.delivered (some ref) d]) := by
  have hfrozen := frozen_deliver (t := t) hs (some ref) d
  have howned : (s.thread t).owned = some ref := by rw [hpc]; rfl
  have harrivals : ∀ q, arrivals (s.trace ++ [.delivered (some ref) d]) q = arrivals s.trace q := by
    intro q
    simp [arrivals, HandlerEvent.arrivalAt]
  refine ⟨?_, ?_, ?_, ?_, ?_, ?_, ?_⟩
  · intro q c hc hdone
    obtain ⟨initial, W, hlive, hlog⟩ := h.unfinished q c hc hdone
    exact ⟨initial, W, hlive, by rw [HandlerSystem.move, harrivals]; exact hlog⟩
  · intro q req hreq
    refine h.known q req ?_
    simpa [HandlerSystem.move] using hreq
  · intro q d' hd'
    rcases List.mem_append.mp hd' with hold | hnew
    · exact (h.delivered q d' hold).frozen hfrozen
    · cases List.mem_singleton.mp hnew
      exact (h.carried t ref d.data (by rw [hpc]; rfl)).frozen hfrozen
  · intro u q data hu
    by_cases hut : u = t
    · rw [hut, move_self] at hu
      cases hu
    · rw [move_other s t _ _ _ _ hut] at hu
      exact (h.carried u q data hu).frozen hfrozen
  · intro u q hu
    by_cases hut : u = t
    · rw [hut, move_self] at hu
      cases hu
    · rw [move_other s t _ _ _ _ hut] at hu
      have hq : (HandlerEvent.delivered (some ref) d).ref ≠ some q := by
        intro heq
        cases heq
        exact hut (hs.sole u t ref hu howned)
      rw [HandlerSystem.move, deliveries_append_of_ne _ _ _ hq]
      exact h.pending u q hu
  · intro q
    by_cases hq : q = ref
    · subst hq
      rw [HandlerSystem.move, deliveries_append_self, h.pending t q howned]
      exact Nat.le_refl 1
    · have hne : (HandlerEvent.delivered (some ref) d).ref ≠ some q :=
        fun heq => hq (Option.some.inj heq).symm
      rw [HandlerSystem.move, deliveries_append_of_ne _ _ _ hne]
      exact h.once q
  · intro q hq
    exact h.dropped q (by simpa [HandlerSystem.move] using hq)

end Deliver

section Consume

variable [DecidableEq Tid] {s : HandlerSystem Tid} {t : Tid} {req : List UInt8} {ref : Nat}
  {ctx : GuestContext} {c : StreamContext} {outcome : ChunkOutcome}

theorem ref_ofConsume : (HandlerEvent.ofConsume req ref outcome).ref = some ref := by
  cases outcome with
  | duplicate | accepted | corrupt | complete => rfl

theorem heap_settled_of_ne {r : Reassembler} {q : Nat} (hq : q ≠ ref) :
    (r.settled ref ctx c outcome).heap q = r.heap q := by
  cases outcome with
  | duplicate => rfl
  | accepted | corrupt | complete => exact Function.update_of_ne hq _ _

theorem allocated_settled {r : Reassembler} :
    (r.settled ref ctx c outcome).allocated = r.allocated := by
  cases outcome with
  | duplicate | accepted | corrupt | complete => rfl

abbrev HandlerSystem.consumed (s : HandlerSystem Tid) (t : Tid) (req : List UInt8) (ref : Nat)
    (ctx : GuestContext) (c : StreamContext) (outcome : ChunkOutcome) : HandlerSystem Tid :=
  s.move t (s.reassembler.settled ref ctx c outcome) (Function.update s.locked ref false)
    (.afterConsume req ref outcome) [.ofConsume req ref outcome]

theorem arrivals_consumed_of_ne {q : Nat} (hq : q ≠ ref) :
    arrivals (s.consumed t req ref ctx c outcome).trace q = arrivals s.trace q := by
  apply arrivals_append_of_ne
  rw [ref_ofConsume]
  exact fun heq => hq (Option.some.inj heq).symm

theorem frozen_consume (hctx : s.reassembler.heap ref = some ctx) (hdone : ctx.done = false) :
    Frozen s (s.consumed t req ref ctx c outcome) := by
  intro q d hd hfinished
  have hq : q ≠ ref := by
    rintro rfl
    rw [hctx] at hd
    cases hd
    rw [hdone] at hfinished
    cases hfinished
  refine ⟨⟨d, ?_, rfl, hfinished⟩, arrivals_consumed_of_ne hq⟩
  exact (heap_settled_of_ne hq).trans hd

theorem arrivals_consumed_self (h : outcome ≠ .corrupt) :
    arrivals (s.consumed t req ref ctx c outcome).trace ref =
      arrivals s.trace ref ++ [chunkArrival req] := by
  have hack : HandlerEvent.ofConsume req ref outcome = .acknowledged ref req := by
    cases outcome with
    | corrupt => exact absurd rfl h
    | duplicate | accepted | complete => rfl
  simp only [HandlerSystem.consumed, HandlerSystem.move, hack]
  rw [arrivals, List.filterMap_append, arrivals]
  congr 1
  exact List.filterMap_cons_some (if_pos rfl)

theorem unfinished_consumed (hctx : s.reassembler.heap ref = some ctx)
    (hindex : (parseChunkHeader req).chunkIndex < ctx.totalChunks)
    (hc : ctx.toStreamContext.consume MaxParkedChunks false (parseChunkHeader req).chunkIndex
      (parseChunkHeader req).dstOffset (chunkPayload req) = (c, outcome))
    {initial : List UInt8} {W : List Arrival} (hlive : Live initial W ctx.toStreamContext)
    (hlog : Logged (arrivals s.trace ref) W) (d : GuestContext)
    (hd : (s.consumed t req ref ctx c outcome).reassembler.heap ref = some d)
    (hdone : d.done = false) :
    ∃ W', Live initial W' d.toStreamContext ∧
      Logged (arrivals (s.consumed t req ref ctx c outcome).trace ref) W' := by
  cases outcome with
  | duplicate =>
    rw [arrivals_consumed_self (by simp)]
    have hsame : d = ctx := Option.some.inj (hd.symm.trans hctx)
    obtain ⟨-, hseen⟩ := mem_of_consume_duplicate hlive _ _ _ _ _ _ hc
    rw [hsame]
    exact ⟨W, hlive, hlog.again (chunkArrival req) hseen⟩
  | accepted =>
    rw [arrivals_consumed_self (by simp)]
    obtain ⟨hnew, -, htracks, hsteady, hend⟩ := tracks_consume hlive MaxParkedChunks false
      (chunkArrival req) hindex (length_chunkPayload_lt req) c .accepted hc (by simp) (by simp)
    have hset : d = { ctx with toStreamContext := c } :=
      Option.some.inj (hd.symm.trans (Function.update_self _ _ _))
    rw [hset]
    exact ⟨W ++ [chunkArrival req], ⟨htracks, hsteady, by simpa using hend⟩,
      hlog.take (chunkArrival req) hnew⟩
  | corrupt | complete data =>
    have hset : d = { ctx with toStreamContext := c, done := true } :=
      Option.some.inj (hd.symm.trans (Function.update_self _ _ _))
    rw [hset] at hdone
    cases hdone

theorem whole_consumed {data : List UInt8}
    (hindex : (parseChunkHeader req).chunkIndex < ctx.totalChunks)
    (hc : ctx.toStreamContext.consume MaxParkedChunks false (parseChunkHeader req).chunkIndex
      (parseChunkHeader req).dstOffset (chunkPayload req) = (c, .complete data))
    {initial : List UInt8} {W : List Arrival} (hlive : Live initial W ctx.toStreamContext)
    (hlog : Logged (arrivals s.trace ref) W) :
    Whole (s.consumed t req ref ctx c (.complete data)) ref data := by
  obtain ⟨hnew, -, htracks, -, hend⟩ := tracks_consume hlive MaxParkedChunks false
    (chunkArrival req) hindex (length_chunkPayload_lt req) c (.complete data) hc (by simp)
    (by simp)
  obtain ⟨rfl, hnext, hoff⟩ : data = c.buf ∧ c.next = c.totalChunks ∧ c.offset = c.totalSize := by
    simpa using hend
  obtain ⟨hbuf, hseen, hsum, -⟩ := complete_concat htracks hnext hoff
  have hlog' := hlog.take (chunkArrival req) hnew
  refine ⟨{ ctx with toStreamContext := c, done := true }, Function.update_self _ _ _, rfl, rfl,
    ?_, ?_, ?_⟩
  · rw [arrivals_consumed_self (by simp)]
    exact hbuf.trans (concat_congr _ _ _ fun i _ => (hlog'.first i).symm)
  · rw [hbuf, length_concat]
    exact hsum
  · rw [arrivals_consumed_self (by simp)]
    exact fun i hi => (hlog'.known i).mpr (hseen i hi)

theorem told_consume (h : Told s) (hs : Seated s) (hpc : s.thread t = .holding req ref)
    (hctx : s.reassembler.heap ref = some ctx)
    (hc : ctx.toStreamContext.consume MaxParkedChunks false (parseChunkHeader req).chunkIndex
      (parseChunkHeader req).dstOffset (chunkPayload req) = (c, outcome)) :
    Told (s.consumed t req ref ctx c outcome) := by
  have hstands := hs.stands t
  rw [hpc] at hstands
  obtain ⟨ctx', hctx', hdone, hindex⟩ := hstands
  rw [hctx] at hctx'
  cases hctx'
  have hfrozen : Frozen s (s.consumed t req ref ctx c outcome) := frozen_consume hctx hdone
  have howned : (s.thread t).owned = some ref := by rw [hpc]; rfl
  obtain ⟨initial, W, hlive, hlog⟩ := h.unfinished ref ctx hctx hdone
  have hdeliveries : ∀ q, deliveries (s.consumed t req ref ctx c outcome).trace q =
      deliveries s.trace q := by
    intro q
    have hnil : HandlerEvent.deliveryOf q (.ofConsume req ref outcome) = none := by
      cases outcome with
      | duplicate | accepted | corrupt | complete => rfl
    simp [deliveries, HandlerSystem.move, hnil]
  refine ⟨?_, ?_, ?_, ?_, ?_, ?_, ?_⟩
  · intro q d hd hfinished
    by_cases hq : q = ref
    · subst hq
      obtain ⟨W', hlive', hlog'⟩ :=
        unfinished_consumed hctx hindex hc hlive hlog d hd hfinished
      exact ⟨initial, W', hlive', hlog'⟩
    · rw [arrivals_consumed_of_ne hq]
      exact h.unfinished q d ((heap_settled_of_ne hq).symm.trans hd) hfinished
  · intro q req' hreq'
    change q < (s.reassembler.settled ref ctx c outcome).allocated
    rw [allocated_settled]
    rcases List.mem_append.mp hreq' with hold | hnew
    · exact h.known q req' hold
    · have heq := congrArg HandlerEvent.ref (List.mem_singleton.mp hnew)
      rw [ref_ofConsume] at heq
      cases heq
      exact hs.sane.below hctx
  · intro q d hd
    rw [← mem_deliveries, hdeliveries, mem_deliveries] at hd
    exact (h.delivered q d hd).frozen hfrozen
  · intro u q data hu
    by_cases hut : u = t
    · rw [hut, move_self] at hu
      cases outcome with
      | duplicate | accepted | corrupt => cases hu
      | complete data' =>
        cases hu
        exact whole_consumed hindex hc hlive hlog
    · rw [move_other s t _ _ _ _ hut] at hu
      exact (h.carried u q data hu).frozen hfrozen
  · intro u q hu
    rw [hdeliveries]
    by_cases hut : u = t
    · rw [hut, move_self] at hu
      have hq : q = ref := by
        cases outcome with
        | duplicate | accepted => cases hu
        | corrupt | complete => exact (Option.some.inj hu).symm
      rw [hq]
      exact h.pending t ref howned
    · rw [move_other s t _ _ _ _ hut] at hu
      exact h.pending u q hu
  · intro q
    rw [hdeliveries]
    exact h.once q
  · intro q hq
    rcases List.mem_append.mp hq with hold | hnew
    · obtain ⟨d, hd, hfinished⟩ := h.dropped q hold
      obtain ⟨⟨d', hd', -, hfinished'⟩, -⟩ := hfrozen q d hd hfinished
      exact ⟨d', hd', hfinished'⟩
    · cases outcome with
      | duplicate | accepted | complete => cases List.mem_singleton.mp hnew
      | corrupt =>
        cases List.mem_singleton.mp hnew
        exact ⟨{ ctx with toStreamContext := c, done := true }, Function.update_self _ _ _, rfl⟩

end Consume

section Change

variable [DecidableEq Tid] {s s' : HandlerSystem Tid} {t : Tid} {now : Int}

theorem calm_open (hs : Seated s) (header : StreamHeader) (buf : List UInt8)
    (locked : Nat → Bool) (pc : HandlerPc) (events : List HandlerEvent)
    (hbuf : buf.length = header.totalSize) (hsize : header.totalSize ≤ 2 ^ 30)
    (hchunks : header.totalChunks < 2 ^ 32) (hpos : 0 < header.totalChunks) :
    Calm s (s.move t (s.reassembler.allocate (.new header buf)) locked pc events) := by
  refine ⟨?_, ?_, Nat.le_succ _⟩
  · intro ref c hc
    exact ⟨c, Reassembler.heap_allocate hs.sane _ hc, rfl, rfl⟩
  · intro ref c' hc'
    by_cases href : ref = s.reassembler.allocated
    · right
      subst href
      have hnew : c' = .new header buf :=
        Option.some.inj (hc'.symm.trans (Function.update_self _ _ _))
      rw [hnew]
      exact ⟨buf, live_fresh _ _ _ buf hbuf hsize hchunks hpos⟩
    · left
      exact hs.sane.below ((Function.update_of_ne href _ _).symm.trans hc')

theorem calm_install (hs : Seated s) (header : StreamHeader) (ref : Nat) (locked : Nat → Bool)
    (pc : HandlerPc) (events : List HandlerEvent) (hpc : s.thread t = .starting header ref) :
    Calm s (s.move t (s.reassembler.startSection now header.streamId ref) locked pc events) := by
  have hstands := hs.stands t
  rw [hpc] at hstands
  obtain ⟨hloose, buf, hc⟩ := hstands
  have hsane := Reassembler.sane_startSection now header.streamId ref _ hs.sane hc rfl hloose
  have halloc := (Reassembler.installed_startSection s.reassembler now header.streamId ref _
    hs.sane.injective hc hloose).allocated
  refine ⟨?_, ?_, Nat.le_of_eq halloc.symm⟩
  · intro q d hd
    exact Reassembler.heap_startSection_kept now header.streamId ref _ hs.sane hc hloose q d hd
  · intro q d hd
    left
    rw [← halloc]
    exact hsane.below hd

theorem calm_found (hs : Seated s) (ref : Nat) (c : GuestContext) (locked : Nat → Bool)
    (pc : HandlerPc) (events : List HandlerEvent) (id n : Nat)
    (hlook : s.reassembler.streams.lookup id = some ref)
    (hc : s.reassembler.heap ref = some c) :
    Calm s (s.move t (({ s.reassembler with seq := n } : Reassembler).setContext ref
      { c with lastSeq := n }) locked pc events) := by
  have hframes := Reassembler.frames_stamp hc n none ⟨id, hlook⟩
  refine ⟨?_, ?_, Nat.le_refl _⟩
  · intro q d hd
    exact hframes.kept q d hd (Or.inl (by simp))
  · intro q d hd
    left
    by_cases hq : q = ref
    · rw [hq]
      exact hs.sane.below hc
    · exact hs.sane.below ((Function.update_of_ne hq _ _).symm.trans hd)

theorem told_change (h : Told s) (hs : Seated s) (hchange : HandlerChange s t now s') :
    Told s' := by
  cases hchange with
  | pass pc hfrom hto =>
    refine h.calm hs (Calm.of_eq hs rfl rfl) (by simp) ?_ ?_
    · intro ref data hcarried
      cases pc with
      | idle | looking | answering => cases hcarried
      | starting | entering | holding | retiring => cases hto
      | delivering q d =>
        cases q with
        | none => cases hcarried
        | some q => cases hto
    · intro ref howned
      rw [HandlerPc.ref_of_owned howned] at hto
      cases hto
  | openStream header buf hpc hbuf hsize hchunks hpos =>
    refine h.calm hs (calm_open hs header buf _ _ _ hbuf hsize hchunks hpos) (by simp)
      (by intro ref data hcarried; cases hcarried) ?_
    intro ref howned
    cases howned
    exact Or.inr (Or.inl rfl)
  | install header ref hpc =>
    refine h.calm hs (calm_install hs header ref _ _ _ hpc) ?_
      (by intro q data hcarried; cases hcarried) (by intro q howned; cases howned)
    intro e he
    rw [List.mem_singleton.mp he]
    rfl
  | found req ref c hpc hlook hc hindex =>
    refine h.calm hs (calm_found hs ref c _ _ _ _ _ hlook hc) ?_
      (by intro q data hcarried; cases hcarried) (by intro q howned; cases howned)
    intro e he
    rw [List.mem_singleton.mp he]
    rfl
  | enter req ref c hpc hfree hc hdone hdead =>
    refine h.calm hs (Calm.of_eq hs rfl rfl) (by simp)
      (by intro q data hcarried; cases hcarried) ?_
    intro q howned
    cases howned
    exact Or.inr (Or.inr ⟨c, hc, hdone⟩)
  | consume req ref ctx c outcome hpc hctx hc => exact told_consume h hs hpc hctx hc
  | retire req ref data hpc =>
    refine h.calm hs (Calm.of_eq hs (Reassembler.heap_retire _ ref)
      (Reassembler.allocated_retire _ ref)) (by simp) ?_ ?_
    · intro q data' hcarried
      cases data with
      | none => cases hcarried
      | some data =>
        cases hcarried
        rw [hpc]
        rfl
    · intro q howned
      left
      cases data with
      | none => cases howned
      | some data =>
        cases howned
        rw [hpc]
        rfl
  | deliver ref d hpc =>
    cases ref with
    | none =>
      refine h.calm hs (Calm.of_eq hs rfl rfl) ?_
        (by intro q data hcarried; cases hcarried) (by intro q howned; cases howned)
      intro e he
      rw [List.mem_singleton.mp he]
      rfl
    | some ref => exact told_deliver h hs ref d hpc

theorem frozen_change (hs : Seated s) (hchange : HandlerChange s t now s') : Frozen s s' := by
  have hnil : ∀ e ∈ ([] : List HandlerEvent), ∀ q, HandlerEvent.arrivalAt q e = none := by
    intro e he
    cases he
  have hstamp : ∀ e ∈ [HandlerEvent.stamped], ∀ q, HandlerEvent.arrivalAt q e = none := by
    intro e he q
    rw [List.mem_singleton.mp he]
    rfl
  cases hchange with
  | pass pc hfrom hto => exact frozen_of_calm (Calm.of_eq hs rfl rfl) hnil
  | openStream header buf hpc hbuf hsize hchunks hpos =>
    exact frozen_of_calm (calm_open hs header buf _ _ _ hbuf hsize hchunks hpos) hnil
  | install header ref hpc => exact frozen_of_calm (calm_install hs header ref _ _ _ hpc) hstamp
  | found req ref c hpc hlook hc hindex =>
    exact frozen_of_calm (calm_found hs ref c _ _ _ _ _ hlook hc) hstamp
  | enter req ref c hpc hfree hc hdone hdead => exact frozen_of_calm (Calm.of_eq hs rfl rfl) hnil
  | consume req ref ctx c outcome hpc hctx hc =>
    have hstands := hs.stands t
    rw [hpc] at hstands
    obtain ⟨ctx', hctx', hdone, -⟩ := hstands
    rw [hctx] at hctx'
    cases hctx'
    exact frozen_consume hctx hdone
  | retire req ref data hpc =>
    exact frozen_of_calm (Calm.of_eq hs (Reassembler.heap_retire _ ref)
      (Reassembler.allocated_retire _ ref)) hnil
  | deliver ref d hpc => exact frozen_deliver hs ref d

end Change

end ShmIpc.Stream.Go
