import ShmIpc.Stream.Delivery
import ShmIpc.Stream.MapSections

/-!
Both reassemblers are instances of the history relation, so what holds of every
history holds of their runs. On the C++ side the in-flight streams are the map
itself. On the Go side they are read through the references, and the relation
needs that two ids never share a context and that no context in the map is
retired.
-/

namespace ShmIpc.Stream
open Library

theorem Discards.refl (v : InFlight) : Discards v v := fun _ => Or.inl rfl

theorem Discards.erase (v : InFlight) (id : Nat) : Discards v (Function.update v id none) := by
  intro i
  by_cases hi : i = id
  · right; rw [hi, Function.update_self]
  · left; rw [Function.update_of_ne hi]

namespace Cpp.StreamReassembler

def inFlight (r : StreamReassembler) : InFlight :=
  fun id => (r.streams.lookup id).map HostContext.toStreamContext

theorem inFlight_insert (r : StreamReassembler) (id : Nat) (c : HostContext) :
    inFlight { r with streams := r.streams.insert id c } =
      Function.update r.inFlight id (some c.toStreamContext) := by
  funext i
  simp only [inFlight, lookup_insert_eq, Function.update_apply]
  split <;> rfl

theorem inFlight_erase (r : StreamReassembler) (id : Nat) :
    inFlight { r with streams := r.streams.erase id } =
      Function.update r.inFlight id none := by
  funext i
  simp only [inFlight, lookup_erase_eq, Function.update_apply]
  split <;> rfl

theorem discards_pruneInternal (r : StreamReassembler) (now : Int) :
    Discards r.inFlight (r.pruneInternal now).inFlight := by
  intro id
  simp only [inFlight, pruneInternal, lookup_keepIf]
  cases r.streams.lookup id with
  | none => exact Or.inl rfl
  | some c =>
    simp only [Option.filter_some]
    split
    · exact Or.inl rfl
    · exact Or.inr rfl

theorem handleStart_step (r : StreamReassembler) (env : Surroundings) (req : List UInt8)
    (hsize : r.config.maxStreamSize ≤ 2 ^ 30) :
    Step r.inFlight ⟨.streamStart, req, some (r.handleStart env req).2⟩
        (r.handleStart env req).1.inFlight ∧
      (r.handleStart env req).1.config = r.config := by
  simp only [handleStart]
  split
  · exact ⟨.refused _ _ _ _ (.refl _), rfl⟩
  · split
    · exact ⟨.refused _ _ _ _ (.refl _), rfl⟩
    · next hbounds =>
        split
        · next hzero =>
            split
            · exact ⟨.refused _ _ _ _ (.refl _), rfl⟩
            · exact ⟨.empty _ _ hzero, rfl⟩
        · next hpos =>
            split
            · exact ⟨.refused _ _ _ _ (discards_pruneInternal r _), rfl⟩
            · split
              · exact ⟨.refused _ _ _ _ (discards_pruneInternal r _), rfl⟩
              · refine ⟨?_, rfl⟩
                rw [inFlight_insert]
                exact .opened _ _ _ _ (by simp) (by omega) (by omega)
                  (discards_pruneInternal r _)

theorem handleChunk_step (r : StreamReassembler) (env : Surroundings) (req : List UInt8) :
    Step r.inFlight ⟨.streamChunk, req, some (r.handleChunk env req).2⟩
        (r.handleChunk env req).1.inFlight ∧
      (r.handleChunk env req).1.config = r.config := by
  simp only [handleChunk]
  split
  · exact ⟨.refused _ _ _ _ (.refl _), rfl⟩
  · split
    · exact ⟨.refused _ _ _ _ (.refl _), rfl⟩
    · split
      · exact ⟨.refused _ _ _ _ (.refl _), rfl⟩
      · next ctx hctx =>
          have hflight : r.inFlight (parseChunkHeader req).streamId =
              some ctx.toStreamContext := by simp [inFlight, hctx]
          split
          · exact ⟨.refused _ _ _ _ (.refl _), rfl⟩
          · next hindex =>
              split
              · next d hd => exact ⟨.repeated _ _ _ d _ _ hflight hd, rfl⟩
              · next d hd =>
                  refine ⟨?_, rfl⟩
                  rw [inFlight_insert]
                  exact .accepted _ _ _ d _ _ hflight (by omega) hd
              · refine ⟨?_, rfl⟩
                rw [inFlight_erase]
                exact .refused _ _ _ _ (.erase _ _)
              · next d data hd =>
                  refine ⟨?_, rfl⟩
                  rw [inFlight_erase]
                  exact .completed _ _ data _ d _ _ hflight (by omega) hd

theorem handle_step (r : StreamReassembler) (env : Surroundings) (m : MsgType)
    (req : List UInt8) (hsize : r.config.maxStreamSize ≤ 2 ^ 30) :
    Step r.inFlight ⟨m, req, (r.handle env m req).2⟩ (r.handle env m req).1.inFlight ∧
      (r.handle env m req).1.config = r.config := by
  cases m with
  | streamStart => exact handleStart_step r env req hsize
  | streamChunk => exact handleChunk_step r env req
  | normal | heartbeatReq | heartbeatResp | shutdown | flatbuffer | guestCall | systemError
  | other => exact ⟨.ignored _ _ _ (by simp) (by simp), rfl⟩

theorem history_apply (r : StreamReassembler) (t : List Exchange) (e : Event)
    (h : History r.inFlight t) (hsize : r.config.maxStreamSize ≤ 2 ^ 30) :
    History (r.apply e).1.inFlight (t ++ (r.apply e).2) ∧ (r.apply e).1.config = r.config := by
  cases e with
  | message env m req =>
    obtain ⟨hstep, hconfig⟩ := handle_step r env m req hsize
    exact ⟨.exchange _ _ _ _ h hstep, hconfig⟩
  | prune now =>
    refine ⟨?_, rfl⟩
    simp only [apply, List.append_nil]
    exact .discard _ _ _ h (discards_pruneInternal r now)

theorem clamp_maxStreamSize (cfg : StreamReassemblerConfig) :
    cfg.clamp.maxStreamSize ≤ 2 ^ 30 := by
  unfold StreamReassemblerConfig.clamp
  split
  · exact Nat.le_refl _
  · next h =>
      rw [Bool.not_eq_true, Bool.not_eq_false'] at h
      exact of_decide_eq_true h

theorem history_run_from (events : List Event) (r : StreamReassembler) (t : List Exchange)
    (h : History r.inFlight t) (hsize : r.config.maxStreamSize ≤ 2 ^ 30) :
    History (r.run events).1.inFlight (t ++ (r.run events).2) ∧
      (r.run events).1.config = r.config := by
  induction events generalizing r t with
  | nil => exact ⟨by simpa only [run, List.append_nil] using h, rfl⟩
  | cons e events ih =>
    obtain ⟨hhist, hconfig⟩ := history_apply r t e h hsize
    obtain ⟨hrest, hlast⟩ := ih _ _ hhist (by rw [hconfig]; exact hsize)
    exact ⟨by simpa only [run, List.append_assoc] using hrest, hlast.trans hconfig⟩

theorem history_run (cfg : StreamReassemblerConfig) (events : List Event) :
    History ((construct cfg).run events).1.inFlight ((construct cfg).run events).2 ∧
      ((construct cfg).run events).1.config = cfg.clamp :=
  history_run_from events (construct cfg) [] .start (clamp_maxStreamSize cfg)

end Cpp.StreamReassembler

namespace Go.Reassembler

def inFlight (s : Reassembler) : InFlight :=
  fun id => (s.streams.lookup id).bind fun ref => (s.heap ref).map GuestContext.toStreamContext

/-- What holds between two handler calls when no call is running. -/
structure Quiet (s : Reassembler) : Prop where
  live : ∀ id ref, s.streams.lookup id = some ref →
    ∃ c, s.heap ref = some c ∧ c.done = false ∧ c.dead = false
  distinct : ∀ id id' ref, s.streams.lookup id = some ref →
    s.streams.lookup id' = some ref → id = id'
  below : ∀ id ref, s.streams.lookup id = some ref → ref < s.allocated

theorem quiet_new (timeout : Int) : Quiet (new timeout) :=
  ⟨by simp [new], by simp [new], by simp [new]⟩

theorem Installed.quiet {s s' : Reassembler} {streamID ref : Nat} {c : GuestContext}
    (h : Installed s s' streamID ref c) (hs : Quiet s) (href : ref < s.allocated)
    (hunused : ∀ i, s.streams.lookup i ≠ some ref) (hdone : c.done = false)
    (hdead : c.dead = false) : Quiet s' := by
  obtain ⟨seq, started, hheap⟩ := h.heap_self
  have hother : ∀ i, i ≠ streamID → s'.streams.lookup i ≠ some ref :=
    fun i hi hlook => hunused i (h.others i ref hi hlook).1
  constructor
  · intro i r hlook
    by_cases hi : i = streamID
    · rw [hi, h.lookup_self] at hlook
      cases hlook
      exact ⟨_, hheap, hdone, hdead⟩
    · obtain ⟨hold, hsame⟩ := h.others i r hi hlook
      rw [hsame]
      exact hs.live i r hold
  · intro i j r hlook hlook'
    by_cases hi : i = streamID
    · by_cases hj : j = streamID
      · rw [hi, hj]
      · rw [hi, h.lookup_self] at hlook
        cases hlook
        exact absurd hlook' (hother j hj)
    · by_cases hj : j = streamID
      · rw [hj, h.lookup_self] at hlook'
        cases hlook'
        exact absurd hlook (hother i hi)
      · exact hs.distinct i j r (h.others i r hi hlook).1 (h.others j r hj hlook').1
  · intro i r hlook
    rw [h.allocated]
    by_cases hi : i = streamID
    · rw [hi, h.lookup_self] at hlook
      cases hlook
      exact href
    · exact hs.below i r (h.others i r hi hlook).1

theorem Installed.inFlight_eq {s s' : Reassembler} {streamID ref : Nat} {c : GuestContext}
    (h : Installed s s' streamID ref c) :
    ∃ w, Discards s.inFlight w ∧
      s'.inFlight = Function.update w streamID (some c.toStreamContext) := by
  obtain ⟨seq, started, hheap⟩ := h.heap_self
  refine ⟨Function.update s'.inFlight streamID none, ?_, ?_⟩
  · intro i
    by_cases hi : i = streamID
    · right; rw [hi, Function.update_self]
    · rw [Function.update_of_ne hi]
      cases hlook : s'.streams.lookup i with
      | none => right; simp only [inFlight, hlook, Option.bind_none]
      | some r =>
        left
        obtain ⟨hold, hsame⟩ := h.others i r hi hlook
        simp only [inFlight, hlook, hold, Option.bind_some, hsame]
  · funext i
    rw [Function.update_idem]
    by_cases hi : i = streamID
    · rw [hi, Function.update_self]
      simp only [inFlight, h.lookup_self, Option.bind_some, hheap, Option.map_some]
    · rw [Function.update_of_ne hi]

theorem quiet_allocate (s : Reassembler) (c : GuestContext) (h : Quiet s) :
    Quiet (s.allocate c) ∧ (s.allocate c).inFlight = s.inFlight := by
  have hheap : ∀ i ref, s.streams.lookup i = some ref →
      Function.update s.heap s.allocated (some c) ref = s.heap ref := by
    intro i ref hlook
    exact Function.update_of_ne (Nat.ne_of_lt (h.below i ref hlook)) _ _
  constructor
  · refine ⟨?_, h.distinct, ?_⟩
    · intro i ref hlook
      obtain ⟨d, hd⟩ := h.live i ref hlook
      exact ⟨d, (hheap i ref hlook).trans hd.1, hd.2⟩
    · intro i ref hlook
      exact Nat.lt_succ_of_lt (h.below i ref hlook)
  · funext i
    simp only [inFlight, allocate, setContext]
    cases hlook : s.streams.lookup i with
    | none => rfl
    | some ref => simp only [Option.bind_some, hheap i ref hlook]

theorem handleStart_step (s : Reassembler) (env : Surroundings) (req : List UInt8)
    (h : Quiet s) :
    Step s.inFlight ⟨.streamStart, req, some (s.handleStart env req).2⟩
        (s.handleStart env req).1.inFlight ∧ Quiet (s.handleStart env req).1 := by
  simp only [handleStart]
  split
  · exact ⟨.refused _ _ _ _ (.refl _), h⟩
  · split
    · exact ⟨.refused _ _ _ _ (.refl _), h⟩
    · next hbounds =>
        split
        · next hzero =>
            split
            · exact ⟨.refused _ _ _ _ (.refl _), h⟩
            · exact ⟨.empty _ _ hzero, h⟩
        · next hpos =>
            simp only [MaxStreamSize] at hbounds
            obtain ⟨hquiet, hflight⟩ := quiet_allocate s (.new (parseStreamHeader req)
              (env.newBuf (parseStreamHeader req).totalSize).toList) h
            have hunused : ∀ i, s.streams.lookup i ≠ some s.allocated :=
              fun i hlook => Nat.lt_irrefl _ (h.below i _ hlook)
            have hinst := installed_startSection _ env.now (parseStreamHeader req).streamId
              s.allocated _ hquiet.distinct (Function.update_self _ _ _) hunused
            refine ⟨?_, hinst.quiet hquiet (Nat.lt_succ_self _) hunused rfl rfl⟩
            obtain ⟨w, hw, heq⟩ := hinst.inFlight_eq
            rw [hflight] at hw
            rw [heq]
            exact .opened _ _ _ _ (by simp) (by omega) (by omega) hw

section Chunk

variable {s : Reassembler} {id ref : Nat}

theorem inFlight_setContext (h : Quiet s) (hlook : s.streams.lookup id = some ref)
    (c : GuestContext) :
    (s.setContext ref c).inFlight = Function.update s.inFlight id (some c.toStreamContext) := by
  funext i
  by_cases hi : i = id
  · subst hi
    simp only [inFlight, setContext, hlook, Option.bind_some, Function.update_self,
      Option.map_some]
  · rw [Function.update_of_ne hi]
    simp only [inFlight, setContext]
    cases hlook' : s.streams.lookup i with
    | none => rfl
    | some r =>
      have hr : r ≠ ref := fun heq => hi (h.distinct i id ref (heq ▸ hlook') hlook)
      simp only [Option.bind_some, Function.update_of_ne hr]

theorem quiet_setContext (h : Quiet s) (c : GuestContext) (hdone : c.done = false)
    (hdead : c.dead = false) : Quiet (s.setContext ref c) := by
  refine ⟨?_, h.distinct, h.below⟩
  intro i r hlook
  by_cases hr : r = ref
  · subst hr
    exact ⟨c, Function.update_self _ _ _, hdone, hdead⟩
  · simp only [setContext, Function.update_of_ne hr]
    exact h.live i r hlook

theorem retire_setContext (h : Quiet s) (hlook : s.streams.lookup id = some ref)
    (c : GuestContext) :
    ((s.setContext ref c).retire id ref).inFlight = Function.update s.inFlight id none ∧
      Quiet ((s.setContext ref c).retire id ref) := by
  have hretire : (s.setContext ref c).retire id ref =
      { s.setContext ref c with streams := s.streams.erase id } := if_pos hlook
  have hne : ∀ i r, (s.streams.erase id).lookup i = some r →
      i ≠ id ∧ s.streams.lookup i = some r ∧ r ≠ ref := by
    intro i r hi
    rw [lookup_erase_eq] at hi
    split at hi
    · cases hi
    · next hid =>
        exact ⟨hid, hi, fun heq => hid (h.distinct i id ref (heq ▸ hi) hlook)⟩
  rw [hretire]
  constructor
  · funext i
    rw [Function.update_apply]
    simp only [inFlight, setContext]
    cases hi : (s.streams.erase id).lookup i with
    | none =>
      split
      · rfl
      · next hid =>
          rw [lookup_erase_eq, if_neg hid] at hi
          rw [hi]
          rfl
    | some r =>
      obtain ⟨hid, hold, hr⟩ := hne i r hi
      rw [if_neg hid, hold]
      simp only [Option.bind_some, Function.update_of_ne hr]
  · constructor
    · intro i r hi
      obtain ⟨-, hold, hr⟩ := hne i r hi
      simp only [setContext, Function.update_of_ne hr]
      exact h.live i r hold
    · intro i j r hi hj
      exact h.distinct i j r (hne i r hi).2.1 (hne j r hj).2.1
    · intro i r hi
      exact h.below i r (hne i r hi).2.1

/-- What the lookup of a chunk call finds: the context, with only its activity
stamp changed. -/
structure Found (s s' : Reassembler) (id index ref : Nat) (c : GuestContext) : Prop where
  lookup : s'.streams.lookup id = some ref
  heap : s'.heap ref = some c
  index_lt : index < c.totalChunks
  done : c.done = false
  dead : c.dead = false
  quiet : Quiet s'
  inFlight : s'.inFlight = s.inFlight

theorem Found.inFlight_self {s s' : Reassembler} {id index ref : Nat} {c : GuestContext}
    (h : Found s s' id index ref c) : s.inFlight id = some c.toStreamContext := by
  rw [← h.inFlight]
  simp only [Reassembler.inFlight, h.lookup, Option.bind_some, h.heap, Option.map_some]

theorem lookupSection_spec (h : Quiet s) (id index : Nat) :
    (s.lookupSection id index = (s, none) ∧
        ∀ c, s.inFlight id = some c → c.totalChunks ≤ index) ∨
      ∃ s' ref c, s.lookupSection id index = (s', some ref) ∧ Found s s' id index ref c := by
  simp only [lookupSection]
  cases hlook : s.streams.lookup id with
  | none => exact Or.inl ⟨rfl, by simp [inFlight, hlook]⟩
  | some ref =>
    obtain ⟨c, hc, hdone, hdead⟩ := h.live id ref hlook
    simp only [hc]
    split
    · next hindex => exact Or.inl ⟨rfl, by simpa [inFlight, hlook, hc] using hindex⟩
    · next hindex =>
        right
        have hq : Quiet { s with seq := (s.seq + 1) % 2 ^ 64 } :=
          ⟨h.live, h.distinct, h.below⟩
        refine ⟨_, ref, _, rfl, hlook, Function.update_self _ _ _, by simpa using hindex,
          hdone, hdead, quiet_setContext hq _ hdone hdead, ?_⟩
        rw [inFlight_setContext hq hlook]
        funext i
        rw [Function.update_apply]
        split
        · next hi =>
            subst hi
            simp only [inFlight, hlook, Option.bind_some, hc, Option.map_some]
        · rfl

theorem handleChunk_step (h : Quiet s) (req : List UInt8) :
    Step s.inFlight ⟨.streamChunk, req, some (s.handleChunk req).2⟩
        (s.handleChunk req).1.inFlight ∧ Quiet (s.handleChunk req).1 := by
  simp only [handleChunk]
  split
  · exact ⟨.refused _ _ _ _ (.refl _), h⟩
  · split
    · exact ⟨.refused _ _ _ _ (.refl _), h⟩
    · cases lookupSection_spec h (parseChunkHeader req).streamId
          (parseChunkHeader req).chunkIndex with
      | inl hnone =>
        simp only [hnone.1]
        exact ⟨.refused _ _ _ _ (.refl _), h⟩
      | inr hsome =>
        obtain ⟨s', ref, c, hlookup, hf⟩ := hsome
        have hctx := hf.inFlight_self
        have hopen : (c.done || c.dead) = false := by rw [hf.done, hf.dead]; rfl
        simp only [hlookup, contextSection, hf.heap, hopen, Bool.false_eq_true, if_false]
        cases hconsume : c.toStreamContext.consume MaxParkedChunks false
            (parseChunkHeader req).chunkIndex (parseChunkHeader req).dstOffset
            (chunkPayload req) with
        | mk d outcome =>
          cases outcome with
          | duplicate =>
            simp only [hf.inFlight]
            exact ⟨.repeated _ _ _ d _ _ hctx hconsume, hf.quiet⟩
          | accepted =>
            simp only [inFlight_setContext hf.quiet hf.lookup, hf.inFlight]
            exact ⟨.accepted _ _ _ d _ _ hctx hf.index_lt hconsume,
              quiet_setContext hf.quiet _ hf.done hf.dead⟩
          | corrupt =>
            obtain ⟨hflight, hquiet⟩ := retire_setContext hf.quiet hf.lookup
              { c with toStreamContext := d, done := true }
            simp only [hflight, hf.inFlight]
            exact ⟨.refused _ _ _ _ (.erase _ _), hquiet⟩
          | complete data =>
            obtain ⟨hflight, hquiet⟩ := retire_setContext hf.quiet hf.lookup
              { c with toStreamContext := d, done := true }
            simp only [hflight, hf.inFlight]
            refine ⟨?_, hquiet⟩
            have hsame := sameStream_consume c.toStreamContext MaxParkedChunks false
              (chunkArrival req)
            have htag : d.appMsgType = c.appMsgType := by
              simpa only [chunkArrival, hconsume] using hsame.appMsgType
            simp only [setContext, Function.update_self, Option.map_some,
              Option.getD_some, htag]
            exact .completed _ _ data _ d _ _ hctx hf.index_lt hconsume

end Chunk

theorem handler_step (s : Reassembler) (env : Surroundings) (m : MsgType) (req : List UInt8)
    (h : Quiet s) :
    Step s.inFlight ⟨m, req, (s.handler env m req).2⟩ (s.handler env m req).1.inFlight ∧
      Quiet (s.handler env m req).1 := by
  cases m with
  | streamStart => exact handleStart_step s env req h
  | streamChunk => exact handleChunk_step h req
  | normal | heartbeatReq | heartbeatResp | shutdown | flatbuffer | guestCall | systemError
  | other => exact ⟨.ignored _ _ _ (by simp) (by simp), h⟩

theorem history_run_from (events : List Event) (s : Reassembler) (t : List Exchange)
    (h : History s.inFlight t) (hq : Quiet s) :
    History (s.run events).1.inFlight (t ++ (s.run events).2) ∧ Quiet (s.run events).1 := by
  induction events generalizing s t with
  | nil => exact ⟨by simpa only [run, List.append_nil] using h, hq⟩
  | cons e events ih =>
    obtain ⟨hstep, hquiet⟩ := handler_step s e.env e.msgType e.req hq
    obtain ⟨hrest, hlast⟩ := ih _ _ (.exchange _ _ _ _ h hstep) hquiet
    exact ⟨by simpa only [run, List.append_assoc, List.singleton_append] using hrest, hlast⟩

theorem history_run (timeout : Int) (events : List Event) :
    History ((new timeout).run events).1.inFlight ((new timeout).run events).2 ∧
      Quiet ((new timeout).run events).1 :=
  history_run_from events (new timeout) [] .start (quiet_new timeout)

end Go.Reassembler

/-- Whatever messages arrive, each callback of either reassembler hands over the
payloads first accepted since the latest accepted start, in index order, and no
start is delivered twice. -/
theorem reassemblers_deliverySound :
    (∀ (cfg : Cpp.StreamReassemblerConfig) (events : List Cpp.Event),
      DeliverySound ((Cpp.StreamReassembler.construct cfg).run events).2) ∧
    ∀ (timeout : Int) (events : List Go.Event),
      DeliverySound ((Go.Reassembler.new timeout).run events).2 := by
  constructor
  · intro cfg events
    exact deliverySound_of_history (Cpp.StreamReassembler.history_run cfg events).1
  · intro timeout events
    exact deliverySound_of_history (Go.Reassembler.history_run timeout events).1

end ShmIpc.Stream
