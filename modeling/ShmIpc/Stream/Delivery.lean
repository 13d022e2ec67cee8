import Mathlib.Logic.Function.Basic
import ShmIpc.Stream.Consume
import ShmIpc.Stream.HostReassembler

/-!
Reassembly as an observer sees it: a history of messages and answers. A
reassembler is any machine whose steps are steps of the relation `Step` on the
in-flight streams, where an implementation is free to discard streams whenever
it likes. Delivery soundness is proved once here, for every such machine.
-/

namespace ShmIpc.Stream
open Library

namespace Exchange

def repliedNormal (x : Exchange) : Bool :=
  x.answer.map Answer.reply = some MsgType.normal

def delivery (x : Exchange) : Option Delivery :=
  x.answer.bind Answer.delivered

/-- An accepted `STREAM_START` of `id` that announces at least one chunk. -/
def opens (id : Nat) (x : Exchange) : Bool :=
  x.msgType = .streamStart && x.repliedNormal &&
    (parseStreamHeader x.req).streamId = id && 0 < (parseStreamHeader x.req).totalChunks

/-- A `STREAM_CHUNK` of `id` with this index that was answered `NORMAL`. -/
def accepts (id index : Nat) (x : Exchange) : Bool :=
  x.msgType = .streamChunk && x.repliedNormal &&
    (parseChunkHeader x.req).streamId = id && (parseChunkHeader x.req).chunkIndex = index

/-- A `STREAM_CHUNK` that made the completion callback fire for `id`. -/
def completes (id : Nat) (x : Exchange) : Bool :=
  x.msgType = .streamChunk && x.delivery.map Delivery.streamId = some id

end Exchange

/-- What a chunk message brings into the stream that takes it in. -/
def chunkArrival (req : List UInt8) : Arrival where
  index := (parseChunkHeader req).chunkIndex
  dstOffset := (parseChunkHeader req).dstOffset
  payload := chunkPayload req

abbrev InFlight := Nat → Option StreamContext

/-- Streams may disappear between two states, none changes or appears. -/
def Discards (v w : InFlight) : Prop := ∀ id, w id = v id ∨ w id = none

inductive Step : InFlight → Exchange → InFlight → Prop
  | ignored (v : InFlight) (m : MsgType) (req : List UInt8)
      (hstart : m ≠ .streamStart) (hchunk : m ≠ .streamChunk) : Step v ⟨m, req, none⟩ v
  | refused (v w : InFlight) (m : MsgType) (req : List UInt8) (hw : Discards v w) :
      Step v ⟨m, req, some .error⟩ w
  | empty (v : InFlight) (req : List UInt8)
      (hchunks : (parseStreamHeader req).totalChunks = 0) :
      Step v ⟨.streamStart, req, some ⟨.normal, some
        ⟨(parseStreamHeader req).streamId, (parseStreamHeader req).appMsgType, []⟩⟩⟩ v
  | opened (v w : InFlight) (req buf : List UInt8)
      (hbuf : buf.length = (parseStreamHeader req).totalSize)
      (hsize : (parseStreamHeader req).totalSize ≤ 2 ^ 30)
      (hchunks : 0 < (parseStreamHeader req).totalChunks) (hw : Discards v w) :
      Step v ⟨.streamStart, req, some .ack⟩ (Function.update w
        (parseStreamHeader req).streamId (some (.fresh (parseStreamHeader req).totalSize
          (parseStreamHeader req).totalChunks (parseStreamHeader req).appMsgType buf)))
  | repeated (v : InFlight) (req : List UInt8) (c d : StreamContext) (maxParked : Nat)
      (allocFails : Bool) (hc : v (parseChunkHeader req).streamId = some c)
      (hd : c.consume maxParked allocFails (parseChunkHeader req).chunkIndex
        (parseChunkHeader req).dstOffset (chunkPayload req) = (d, .duplicate)) :
      Step v ⟨.streamChunk, req, some .ack⟩ v
  | accepted (v : InFlight) (req : List UInt8) (c d : StreamContext) (maxParked : Nat)
      (allocFails : Bool) (hc : v (parseChunkHeader req).streamId = some c)
      (hindex : (parseChunkHeader req).chunkIndex < c.totalChunks)
      (hd : c.consume maxParked allocFails (parseChunkHeader req).chunkIndex
        (parseChunkHeader req).dstOffset (chunkPayload req) = (d, .accepted)) :
      Step v ⟨.streamChunk, req, some .ack⟩
        (Function.update v (parseChunkHeader req).streamId (some d))
  | completed (v : InFlight) (req data : List UInt8) (c d : StreamContext) (maxParked : Nat)
      (allocFails : Bool) (hc : v (parseChunkHeader req).streamId = some c)
      (hindex : (parseChunkHeader req).chunkIndex < c.totalChunks)
      (hd : c.consume maxParked allocFails (parseChunkHeader req).chunkIndex
        (parseChunkHeader req).dstOffset (chunkPayload req) = (d, .complete data)) :
      Step v ⟨.streamChunk, req, some ⟨.normal, some
          ⟨(parseChunkHeader req).streamId, c.appMsgType, data⟩⟩⟩
        (Function.update v (parseChunkHeader req).streamId none)

/-- Every history a reassembler can show, with the streams it leaves in flight. -/
inductive History : InFlight → List Exchange → Prop
  | start : History (fun _ => none) []
  | exchange (v w : InFlight) (t : List Exchange) (x : Exchange) (ht : History v t)
      (hx : Step v x w) : History w (t ++ [x])
  | discard (v w : InFlight) (t : List Exchange) (ht : History v t)
      (hw : Discards v w) : History w t

/-- `st` is the latest accepted start of `id` in `t`, and `after` follows it. -/
structure LatestOpen (id : Nat) (t before : List Exchange) (st : Exchange)
    (after : List Exchange) : Prop where
  split : t = before ++ st :: after
  opens : st.opens id = true
  latest : ∀ x ∈ after, x.opens id = false

/-- The chunk `x`, coming after `pre`, rightly delivered `d`: it completes the
stream of the latest start, whose `i`-th block `p i` is the payload of the first
chunk `i` accepted since. -/
structure Delivered (pre : List Exchange) (x : Exchange) (d : Delivery)
    (before : List Exchange) (st : Exchange) (after : List Exchange)
    (p : Nat → List UInt8) : Prop where
  start : LatestOpen d.streamId pre before st after
  totalSize : (parseStreamHeader st.req).totalSize = d.data.length
  appMsgType : (parseStreamHeader st.req).appMsgType = d.appMsgType
  blocks : ∀ i, i < (parseStreamHeader st.req).totalChunks →
    ∃ y, (after ++ [x]).find? (Exchange.accepts d.streamId i) = some y ∧
      chunkPayload y.req = p i
  data : d.data = concat p (parseStreamHeader st.req).totalChunks
  once : ∀ y ∈ after, y.completes d.streamId = false

structure DeliverySound (t : List Exchange) : Prop where
  chunk : ∀ pre x rest d, t = pre ++ x :: rest → x.msgType = .streamChunk →
    x.delivery = some d → ∃ before st after p, Delivered pre x d before st after p
  start : ∀ x ∈ t, ∀ d, x.msgType = .streamStart → x.delivery = some d →
    (parseStreamHeader x.req).totalChunks = 0 ∧
      d = ⟨(parseStreamHeader x.req).streamId, (parseStreamHeader x.req).appMsgType, []⟩
  /-- Two callbacks for one id have an accepted start between them. -/
  once : ∀ id pre x mid y rest, t = pre ++ x :: (mid ++ y :: rest) →
    x.completes id = true → y.completes id = true → ∃ z ∈ mid, z.opens id = true

/-- The arrivals `W` are the first accepted chunks of `id` in `after`. -/
structure Recorded (id : Nat) (after : List Exchange) (W : List Arrival) : Prop where
  first : ∀ a ∈ W, ∃ x, after.find? (Exchange.accepts id a.index) = some x ∧ chunkArrival x.req = a
  all : ∀ x ∈ after, ∀ i, x.accepts id i = true → i ∈ indices W

/-- Where an in-flight context comes from. -/
structure Account (id : Nat) (c : StreamContext) (t before : List Exchange) (st : Exchange)
    (after : List Exchange) (initial : List UInt8) (W : List Arrival) : Prop where
  start : LatestOpen id t before st after
  open_yet : ∀ x ∈ after, x.completes id = false
  recorded : Recorded id after W
  live : Live initial W c
  totalSize : c.totalSize = (parseStreamHeader st.req).totalSize
  totalChunks : c.totalChunks = (parseStreamHeader st.req).totalChunks
  appMsgType : c.appMsgType = (parseStreamHeader st.req).appMsgType

def Explained (v : InFlight) (t : List Exchange) : Prop :=
  ∀ id c, v id = some c → ∃ before st after initial W, Account id c t before st after initial W

theorem LatestOpen.append {id : Nat} {t before : List Exchange} {st : Exchange}
    {after : List Exchange} (h : LatestOpen id t before st after) (x : Exchange)
    (hx : x.opens id = false) : LatestOpen id (t ++ [x]) before st (after ++ [x]) := by
  refine ⟨by simp [h.split], h.opens, ?_⟩
  intro y hy
  cases List.mem_append.mp hy with
  | inl hafter => exact h.latest y hafter
  | inr hlast => rw [List.mem_singleton.mp hlast]; exact hx

theorem Recorded.append_seen {id : Nat} {after : List Exchange} {W : List Arrival}
    (h : Recorded id after W) (x : Exchange)
    (hx : ∀ i, x.accepts id i = true → i ∈ indices W) : Recorded id (after ++ [x]) W := by
  constructor
  · intro a ha
    obtain ⟨y, hy, harrival⟩ := h.first a ha
    exact ⟨y, by simp [List.find?_append, hy], harrival⟩
  · intro y hy i hi
    cases List.mem_append.mp hy with
    | inl hafter => exact h.all y hafter i hi
    | inr hlast =>
      rw [List.mem_singleton.mp hlast] at hi
      exact hx i hi

theorem Recorded.append_new {id : Nat} {after : List Exchange} {W : List Arrival}
    (h : Recorded id after W) (x : Exchange) (hx : x.accepts id (chunkArrival x.req).index = true)
    (hnew : (chunkArrival x.req).index ∉ indices W) :
    Recorded id (after ++ [x]) (W ++ [chunkArrival x.req]) := by
  constructor
  · intro a ha
    cases List.mem_append.mp ha with
    | inl hW =>
      obtain ⟨y, hy, harrival⟩ := h.first a hW
      exact ⟨y, by simp [List.find?_append, hy], harrival⟩
    | inr hlast =>
      rw [List.mem_singleton.mp hlast]
      have hnone : after.find? (Exchange.accepts id (chunkArrival x.req).index) = none := by
        rw [List.find?_eq_none]
        intro y hy hacc
        exact hnew (h.all y hy _ hacc)
      exact ⟨x, by simp [List.find?_append, hnone, hx], rfl⟩
  · intro y hy i hi
    simp only [indices, List.map_append, List.map_cons, List.map_nil, List.mem_append,
      List.mem_singleton]
    cases List.mem_append.mp hy with
    | inl hafter => exact Or.inl (h.all y hafter i hi)
    | inr hlast =>
      rw [List.mem_singleton.mp hlast] at hi
      simp only [Exchange.accepts, Bool.and_eq_true, decide_eq_true_eq] at hi
      exact Or.inr hi.2.symm

theorem Account.append {id : Nat} {c : StreamContext} {t before : List Exchange}
    {st : Exchange} {after : List Exchange} {initial : List UInt8} {W : List Arrival}
    (h : Account id c t before st after initial W) (x : Exchange)
    (hopens : x.opens id = false) (hcompletes : x.completes id = false)
    (haccepts : ∀ i, x.accepts id i = true → i ∈ indices W) :
    Account id c (t ++ [x]) before st (after ++ [x]) initial W where
  start := h.start.append x hopens
  open_yet := by
    intro y hy
    cases List.mem_append.mp hy with
    | inl hafter => exact h.open_yet y hafter
    | inr hlast => rw [List.mem_singleton.mp hlast]; exact hcompletes
  recorded := h.recorded.append_seen x haccepts
  live := h.live
  totalSize := h.totalSize
  totalChunks := h.totalChunks
  appMsgType := h.appMsgType

theorem Account.append_taken {c d : StreamContext} {t before : List Exchange}
    {st : Exchange} {after : List Exchange} {initial : List UInt8} {W : List Arrival}
    {req : List UInt8}
    (h : Account (parseChunkHeader req).streamId c t before st after initial W)
    (hnew : (parseChunkHeader req).chunkIndex ∉ indices W) (hsame : SameStream c d)
    (hlive : Live initial (W ++ [chunkArrival req]) d) :
    Account (parseChunkHeader req).streamId d (t ++ [⟨.streamChunk, req, some .ack⟩]) before st
      (after ++ [⟨.streamChunk, req, some .ack⟩]) initial (W ++ [chunkArrival req]) where
  start := h.start.append _ rfl
  open_yet := by
    intro y hy
    cases List.mem_append.mp hy with
    | inl hafter => exact h.open_yet y hafter
    | inr hlast => rw [List.mem_singleton.mp hlast]; rfl
  recorded := h.recorded.append_new ⟨.streamChunk, req, some .ack⟩
    (by simp [Exchange.accepts, Exchange.repliedNormal, chunkArrival, Answer.ack]) hnew
  live := hlive
  totalSize := hsame.totalSize.trans h.totalSize
  totalChunks := hsame.totalChunks.trans h.totalChunks
  appMsgType := hsame.appMsgType.trans h.appMsgType

theorem Exchange.accepts_of_ne {x : Exchange} {id : Nat}
    (h : (parseChunkHeader x.req).streamId ≠ id) (i : Nat) : x.accepts id i = false := by
  simp [Exchange.accepts, h]

theorem Explained.discards {v w : InFlight} {t : List Exchange} (h : Explained v t)
    (hw : Discards v w) : Explained w t := by
  intro id c hc
  cases hw id with
  | inl hsame => exact h id c (hsame ▸ hc)
  | inr hnone => rw [hnone] at hc; cases hc

theorem Explained.account_append {v : InFlight} {t : List Exchange} (h : Explained v t)
    (x : Exchange) (id : Nat) (c : StreamContext) (hc : v id = some c)
    (hopens : x.opens id = false) (hcompletes : x.completes id = false)
    (haccepts : ∀ i, x.accepts id i = false) :
    ∃ before st after initial W, Account id c (t ++ [x]) before st after initial W := by
  obtain ⟨before, st, after, initial, W, hacc⟩ := h id c hc
  refine ⟨before, st, after ++ [x], initial, W, hacc.append x hopens hcompletes ?_⟩
  intro i hi
  rw [haccepts i] at hi
  cases hi

theorem Account.opened (t : List Exchange) (req buf : List UInt8)
    (hbuf : buf.length = (parseStreamHeader req).totalSize)
    (hsize : (parseStreamHeader req).totalSize ≤ 2 ^ 30)
    (hchunks : 0 < (parseStreamHeader req).totalChunks) :
    Account (parseStreamHeader req).streamId
      (.fresh (parseStreamHeader req).totalSize (parseStreamHeader req).totalChunks
        (parseStreamHeader req).appMsgType buf)
      (t ++ [⟨.streamStart, req, some .ack⟩]) t ⟨.streamStart, req, some .ack⟩ [] buf [] where
  start := ⟨rfl, by simp [Exchange.opens, Exchange.repliedNormal, Answer.ack, hchunks],
    by simp⟩
  open_yet := by simp
  recorded := ⟨by simp, by simp⟩
  live := live_fresh _ _ _ buf hbuf hsize (parseStreamHeader_inRange req).totalChunks hchunks
  totalSize := rfl
  totalChunks := rfl
  appMsgType := rfl

theorem length_chunkPayload_lt (req : List UInt8) : (chunkPayload req).length < 2 ^ 32 := by
  have hrange := (parseChunkHeader_inRange req).payloadSize
  have hle : (chunkPayload req).length ≤ (parseChunkHeader req).payloadSize :=
    List.length_take_le _ _
  omega

theorem explained_step {v w : InFlight} {t : List Exchange} {x : Exchange}
    (h : Explained v t) (hx : Step v x w) : Explained w (t ++ [x]) := by
  cases hx with
  | ignored m req hstart hchunk =>
    intro id c hc
    exact h.account_append _ id c hc (by simp [Exchange.opens, hstart])
      (by simp [Exchange.completes, hchunk]) (by simp [Exchange.accepts, hchunk])
  | refused w m req hw =>
    intro id c hc
    exact (h.discards hw).account_append _ id c hc
      (by simp [Exchange.opens, Exchange.repliedNormal, Answer.error])
      (by simp [Exchange.completes, Exchange.delivery, Answer.error])
      (by simp [Exchange.accepts, Exchange.repliedNormal, Answer.error])
  | empty req hchunks =>
    intro id c hc
    exact h.account_append _ id c hc (by simp [Exchange.opens, hchunks])
      (by simp [Exchange.completes]) (by simp [Exchange.accepts])
  | opened w req buf hbuf hsize hchunks hw =>
    intro id c hc
    by_cases hid : id = (parseStreamHeader req).streamId
    · subst hid
      rw [Function.update_self] at hc
      cases hc
      exact ⟨t, _, [], buf, [], Account.opened t req buf hbuf hsize hchunks⟩
    · rw [Function.update_of_ne hid] at hc
      exact (h.discards hw).account_append _ id c hc
        (by simp [Exchange.opens, Ne.symm hid]) (by simp [Exchange.completes])
        (by simp [Exchange.accepts])
  | repeated req e d maxParked allocFails he hd =>
    intro id c hc
    by_cases hid : (parseChunkHeader req).streamId = id
    · subst hid
      obtain ⟨before, st, after, initial, W, hacc⟩ := h _ c hc
      rw [he] at hc
      cases hc
      refine ⟨before, st, _, initial, W, hacc.append _ rfl rfl ?_⟩
      intro i hi
      simp only [Exchange.accepts, Bool.and_eq_true, decide_eq_true_eq] at hi
      rw [← hi.2]
      exact (mem_of_consume_duplicate hacc.live _ _ _ _ _ _ hd).2
    · exact h.account_append _ id c hc rfl rfl (Exchange.accepts_of_ne hid)
  | accepted req e d maxParked allocFails he hindex hd =>
    intro id c hc
    by_cases hid : (parseChunkHeader req).streamId = id
    · subst hid
      rw [Function.update_self] at hc
      cases hc
      obtain ⟨before, st, after, initial, W, hacc⟩ := h _ e he
      obtain ⟨hnew, hsame, htracks, hsteady, hcases⟩ := tracks_consume hacc.live maxParked
        allocFails (chunkArrival req) hindex (length_chunkPayload_lt req) d _ hd
        (by simp) (by simp)
      refine ⟨before, st, _, initial, _,
        hacc.append_taken hnew hsame ⟨htracks, hsteady, ?_⟩⟩
      cases hcases with
      | inl hgoes => exact hgoes.2
      | inr hends => cases hends.1
    · rw [Function.update_of_ne (Ne.symm hid)] at hc
      exact h.account_append _ id c hc rfl rfl (Exchange.accepts_of_ne hid)
  | completed req data e d maxParked allocFails he hindex hd =>
    intro id c hc
    by_cases hid : (parseChunkHeader req).streamId = id
    · subst hid
      rw [Function.update_self] at hc
      cases hc
    · rw [Function.update_of_ne (Ne.symm hid)] at hc
      exact h.account_append _ id c hc rfl
        (by simp [Exchange.completes, Exchange.delivery, hid]) (Exchange.accepts_of_ne hid)

theorem explained_history {v : InFlight} {t : List Exchange} (h : History v t) :
    Explained v t := by
  induction h with
  | start => intro id c hc; cases hc
  | exchange v w t x _ hx ih => exact explained_step ih hx
  | discard v w t _ hw ih => exact ih.discards hw

theorem delivered_of_complete {c d : StreamContext} {t before : List Exchange}
    {st : Exchange} {after : List Exchange} {initial : List UInt8} {W : List Arrival}
    {req data : List UInt8} {maxParked : Nat} {allocFails : Bool} {x : Exchange}
    (h : Account (parseChunkHeader req).streamId c t before st after initial W)
    (hindex : (parseChunkHeader req).chunkIndex < c.totalChunks)
    (hd : c.consume maxParked allocFails (parseChunkHeader req).chunkIndex
      (parseChunkHeader req).dstOffset (chunkPayload req) = (d, .complete data))
    (hx : x = ⟨.streamChunk, req, some ⟨.normal, some
      ⟨(parseChunkHeader req).streamId, c.appMsgType, data⟩⟩⟩) :
    ∃ p, Delivered t x ⟨(parseChunkHeader req).streamId, c.appMsgType, data⟩
      before st after p := by
  obtain ⟨hnew, hsame, htracks, -, hcases⟩ := tracks_consume h.live maxParked allocFails
    (chunkArrival req) hindex (length_chunkPayload_lt req) d _ hd (by simp) (by simp)
  cases hcases with
  | inl hgoes => cases hgoes.1
  | inr hends =>
    obtain ⟨hdata, hnext, hoff⟩ := hends
    cases hdata
    obtain ⟨hbuf, hseen, hsum, -⟩ := complete_concat htracks hnext hoff
    have hreq : x.req = req := by rw [hx]
    have hrec := h.recorded.append_new x
      (by simp [hx, Exchange.accepts, Exchange.repliedNormal, chunkArrival])
      (hreq ▸ hnew)
    rw [hreq] at hrec
    have hchunks : d.totalChunks = (parseStreamHeader st.req).totalChunks :=
      hsame.totalChunks.trans h.totalChunks
    refine ⟨payloadAt (W ++ [chunkArrival req]), h.start, ?_, h.appMsgType.symm, ?_, ?_, h.open_yet⟩
    · rw [← h.totalSize, ← hsame.totalSize, ← hsum, hbuf, length_concat]
    · intro i hi
      obtain ⟨a, ha, rfl⟩ := mem_indices.mp (hseen i (hchunks ▸ hi))
      obtain ⟨y, hy, harrival⟩ := hrec.first a ha
      refine ⟨y, hy, ?_⟩
      rw [payloadAt_of_mem htracks.distinct ha, ← harrival]
      rfl
    · rw [← hchunks]
      exact hbuf

theorem delivered_of_step {v w : InFlight} {t : List Exchange} {x : Exchange}
    (h : Explained v t) (hx : Step v x w) (hchunk : x.msgType = .streamChunk) (d : Delivery)
    (hd : x.delivery = some d) : ∃ before st after p, Delivered t x d before st after p := by
  cases hx with
  | ignored m req hstart hchunk | refused w m req hw | repeated req c e maxParked _ hc hconsume
  | accepted req c e maxParked _ hc _ hconsume => cases hd
  | empty req hchunks | opened w req buf hbuf hsize hchunks hw => cases hchunk
  | completed req data c e maxParked allocFails hc hindex hconsume =>
    cases hd
    obtain ⟨before, st, after, initial, W, hacc⟩ := h _ c hc
    obtain ⟨p, hp⟩ := delivered_of_complete hacc hindex hconsume rfl
    exact ⟨before, st, after, p, hp⟩

theorem delivery_of_start {v w : InFlight} {x : Exchange} (hx : Step v x w)
    (hstart : x.msgType = .streamStart) (d : Delivery) (hd : x.delivery = some d) :
    (parseStreamHeader x.req).totalChunks = 0 ∧
      d = ⟨(parseStreamHeader x.req).streamId, (parseStreamHeader x.req).appMsgType, []⟩ := by
  cases hx with
  | ignored m req hs hchunk | refused w m req hw | opened w req buf hbuf hsize hchunks hw =>
    cases hd
  | empty req hchunks =>
    cases hd
    exact ⟨hchunks, rfl⟩
  | repeated | accepted | completed => cases hstart

theorem exists_open_between {id : Nat} {pre mid before after : List Exchange}
    {x st : Exchange} (hlatest : LatestOpen id (pre ++ x :: mid) before st after)
    (honce : ∀ y ∈ after, y.completes id = false) (hx : x.completes id = true) :
    ∃ z ∈ mid, z.opens id = true := by
  have hne : st ≠ x := by
    intro heq
    have hopens := hlatest.opens
    rw [heq] at hopens
    simp only [Exchange.opens, Exchange.completes, Bool.and_eq_true, decide_eq_true_eq]
      at hopens hx
    rw [hx.1] at hopens
    cases hopens.1.1.1
  cases List.append_eq_append_iff.mp hlatest.split with
  | inl hleft =>
    obtain ⟨l, -, hmid⟩ := hleft
    cases l with
    | nil => exact absurd (List.cons.inj hmid).1.symm hne
    | cons z l =>
      obtain ⟨-, hmid⟩ := List.cons.inj hmid
      exact ⟨st, by simp [hmid], hlatest.opens⟩
  | inr hright =>
    obtain ⟨l, -, hafter⟩ := hright
    cases l with
    | nil => exact absurd (List.cons.inj hafter).1 hne
    | cons z l =>
      obtain ⟨-, hafter⟩ := List.cons.inj hafter
      have hfalse := honce x (by simp [hafter])
      rw [hx] at hfalse
      cases hfalse

theorem deliveries_of_history {v : InFlight} {t : List Exchange} (h : History v t) :
    (∀ pre x rest d, t = pre ++ x :: rest → x.msgType = .streamChunk → x.delivery = some d →
        ∃ before st after p, Delivered pre x d before st after p) ∧
      ∀ x ∈ t, ∀ d, x.msgType = .streamStart → x.delivery = some d →
        (parseStreamHeader x.req).totalChunks = 0 ∧
          d = ⟨(parseStreamHeader x.req).streamId, (parseStreamHeader x.req).appMsgType, []⟩ := by
  induction h with
  | start => exact ⟨by simp, by simp⟩
  | discard v w t _ hw ih => exact ih
  | exchange v w t x ht hx ih =>
    constructor
    · intro pre y rest d hsplit hchunk hd
      cases List.eq_nil_or_concat rest with
      | inl hnil =>
        subst hnil
        obtain ⟨rfl, hxy⟩ := List.append_inj' hsplit rfl
        cases hxy
        exact delivered_of_step (explained_history ht) hx hchunk d hd
      | inr hconcat =>
        obtain ⟨rest, z, rfl⟩ := hconcat
        rw [List.concat_eq_append, ← List.cons_append, ← List.append_assoc] at hsplit
        obtain ⟨ht', -⟩ := List.append_inj' hsplit rfl
        exact ih.1 pre y rest d ht' hchunk hd
    · intro y hy d hstart hd
      cases List.mem_append.mp hy with
      | inl hold => exact ih.2 y hold d hstart hd
      | inr hlast =>
        rw [List.mem_singleton.mp hlast] at hstart hd ⊢
        exact delivery_of_start hx hstart d hd

theorem deliverySound_of_history {v : InFlight} {t : List Exchange} (h : History v t) :
    DeliverySound t := by
  obtain ⟨hchunk, hstart⟩ := deliveries_of_history h
  refine ⟨hchunk, hstart, ?_⟩
  intro id pre x mid y rest hsplit hx hy
  have hy' := hy
  simp only [Exchange.completes, Bool.and_eq_true, decide_eq_true_eq] at hy'
  obtain ⟨d, hd, rfl⟩ := Option.map_eq_some_iff.mp hy'.2
  obtain ⟨before, st, after, p, hdel⟩ :=
    hchunk (pre ++ x :: mid) y rest d (by simp [hsplit]) hy'.1 hd
  exact exists_open_between hdel.start hdel.once hx

end ShmIpc.Stream
