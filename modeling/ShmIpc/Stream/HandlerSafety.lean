import ShmIpc.Stream.HandlerTrace

/-!
The Go reassembler under concurrent handler calls: at most one callback for a context,
made with the chunks first acknowledged for it; no change to a delivered or dropped
context; no removal of a context from the map without a reason of its own; and no more
streams in the map than the cap allows, until the 64-bit activity counter has run through.
-/

namespace ShmIpc.Stream.Go
open Library

variable {Tid : Type}

/-- How often a map section has advanced the activity counter. -/
def stamps (trace : List HandlerEvent) : Nat := trace.count .stamped

/-- The counter and the stamps taken from it, before it wraps. -/
structure Bounded (s : HandlerSystem Tid) : Prop where
  seq : s.reassembler.seq = stamps s.trace % 2 ^ 64
  stamped : stamps s.trace < 2 ^ 64 → ∀ ref c, s.reassembler.heap ref = some c →
    c.lastSeq ≤ stamps s.trace
  room : stamps s.trace < 2 ^ 64 → count s.reassembler.streams ≤ MaxConcurrentStreams

theorem lastSeqOf_eq (r : Reassembler) (ref : Nat) (c : GuestContext)
    (hc : r.heap ref = some c) : r.lastSeqOf ref = c.lastSeq := by
  simp only [Reassembler.lastSeqOf, hc]

theorem lastSeqOf_prune (r : Reassembler) (now : Int) (ref : Nat) :
    (r.prune now).lastSeqOf ref = r.lastSeqOf ref := by
  cases Reassembler.heap_prune r now ref with
  | inl hsame => simp only [Reassembler.lastSeqOf, hsame]
  | inr hburied =>
    simp only [Reassembler.lastSeqOf, hburied.2.2.2]
    cases r.heap ref with
    | none => rfl
    | some c => rfl

section Bound

variable {s : HandlerSystem Tid}

theorem stamps_append_of_ne (trace : List HandlerEvent) (e : HandlerEvent) (h : e ≠ .stamped) :
    stamps (trace ++ [e]) = stamps trace := by
  simp [stamps, h]

theorem stamps_append_self (trace : List HandlerEvent) :
    stamps (trace ++ [.stamped]) = stamps trace + 1 := by
  simp [stamps]

theorem bounded_stamp (h : Bounded s) (s' : HandlerSystem Tid) (ref : Nat)
    (htrace : s'.trace = s.trace ++ [.stamped])
    (hseq : s'.reassembler.seq = (s.reassembler.seq + 1) % 2 ^ 64)
    (hself : ∀ c, s'.reassembler.heap ref = some c →
      c.lastSeq = (s.reassembler.seq + 1) % 2 ^ 64)
    (hother : ∀ q c, q ≠ ref → s'.reassembler.heap q = some c →
      ∃ d, s.reassembler.heap q = some d ∧ d.lastSeq = c.lastSeq)
    (hroom : (∀ q c, s.reassembler.heap q = some c → c.lastSeq < 2 ^ 64 - 1) →
      count s.reassembler.streams ≤ MaxConcurrentStreams →
      count s'.reassembler.streams ≤ MaxConcurrentStreams) : Bounded s' := by
  have hstamps : stamps s'.trace = stamps s.trace + 1 := by rw [htrace, stamps_append_self]
  have hcounter : (s.reassembler.seq + 1) % 2 ^ 64 = (stamps s.trace + 1) % 2 ^ 64 := by
    rw [h.seq, Nat.mod_add_mod]
  refine ⟨?_, ?_, ?_⟩
  · rw [hseq, hcounter, hstamps]
  · intro hbelow q c hc
    rw [hstamps] at hbelow ⊢
    by_cases hq : q = ref
    · rw [hself c (hq ▸ hc), hcounter]
      exact Nat.mod_le _ _
    · obtain ⟨d, hd, heq⟩ := hother q c hq hc
      have hle := h.stamped (by omega) q d hd
      omega
  · intro hbelow
    rw [hstamps] at hbelow
    refine hroom ?_ (h.room (by omega))
    intro q c hc
    have hle := h.stamped (by omega) q c hc
    omega

theorem Bounded.frame (h : Bounded s) (s' : HandlerSystem Tid)
    (htrace : stamps s'.trace = stamps s.trace)
    (hseq : s'.reassembler.seq = s.reassembler.seq)
    (hheap : ∀ q c, s'.reassembler.heap q = some c →
      c.lastSeq = 0 ∨ ∃ d, s.reassembler.heap q = some d ∧ d.lastSeq = c.lastSeq)
    (hcount : count s'.reassembler.streams ≤ count s.reassembler.streams) : Bounded s' := by
  refine ⟨?_, ?_, ?_⟩
  · rw [hseq, htrace]
    exact h.seq
  · intro hbelow q c hc
    rw [htrace] at hbelow ⊢
    rcases hheap q c hc with hzero | ⟨d, hd, heq⟩
    · rw [hzero]
      exact Nat.zero_le _
    · rw [← heq]
      exact h.stamped hbelow q d hd
  · intro hbelow
    rw [htrace] at hbelow
    exact hcount.trans (h.room hbelow)

end Bound

section Change

variable [DecidableEq Tid] {s s' : HandlerSystem Tid} {t : Tid} {now : Int}

theorem bounded_install (h : Bounded s) (hs : Seated s) (header : StreamHeader) (ref : Nat)
    (hpc : s.thread t = .starting header ref) :
    Bounded (s.move t (s.reassembler.startSection now header.streamId ref) s.locked
      (.answering .normal) [.stamped]) := by
  have hstands := hs.stands t
  rw [hpc] at hstands
  obtain ⟨hloose, buf, hc⟩ := hstands
  have heq := Reassembler.startSection_eq s.reassembler now header.streamId ref _
    hs.sane.injective hc hloose
  refine bounded_stamp h _ ref rfl (congrArg Reassembler.seq heq) ?_ ?_ ?_
  · intro c hself
    rw [HandlerSystem.move, heq] at hself
    have hnew : c = { GuestContext.new header buf with
        lastSeq := (s.reassembler.seq + 1) % 2 ^ 64, started := now } :=
      Option.some.inj (hself.symm.trans (Function.update_self _ _ _))
    rw [hnew]
  · intro q c hq hself
    cases Reassembler.heap_startSection s.reassembler now header.streamId ref _
        hs.sane.injective hc hloose q hq with
    | inl hsame => exact ⟨c, hsame.symm.trans hself, rfl⟩
    | inr hburied =>
      obtain ⟨d, hd, hbury⟩ := Option.map_eq_some_iff.mp (hburied.2.symm.trans hself)
      exact ⟨d, hd, by rw [← hbury]; rfl⟩
  · intro hbelow hroom
    rw [HandlerSystem.move, heq]
    refine Reassembler.count_makeRoom_insert (s.reassembler.prune now) header.streamId ref
      ((Reassembler.count_prune_le _ now).trans hroom) ?_
    intro id q hlook
    obtain ⟨d, hd, -⟩ := hs.sane.mapped id q
      ((Reassembler.shrinksOff_prune 0 s.reassembler now).entry id q hlook)
    rw [lastSeqOf_prune, lastSeqOf_eq _ q d hd]
    exact hbelow q d hd

theorem bounded_change (h : Bounded s) (hs : Seated s) (hchange : HandlerChange s t now s') :
    Bounded s' := by
  have hkept : ∀ q (c : GuestContext), s.reassembler.heap q = some c →
      c.lastSeq = 0 ∨ ∃ d, s.reassembler.heap q = some d ∧ d.lastSeq = c.lastSeq :=
    fun q c hc => Or.inr ⟨c, hc, rfl⟩
  cases hchange with
  | pass pc hfrom hto =>
    exact h.frame _ (by rw [HandlerSystem.move, List.append_nil]) rfl hkept (Nat.le_refl _)
  | openStream header buf hpc hbuf hsize hchunks hpos =>
    refine h.frame _ (by rw [HandlerSystem.move, List.append_nil]) rfl ?_ (Nat.le_refl _)
    intro q c hc
    by_cases hq : q = s.reassembler.allocated
    · left
      subst hq
      have hnew : c = .new header buf :=
        Option.some.inj (hc.symm.trans (Function.update_self _ _ _))
      rw [hnew]
      rfl
    · exact hkept q c ((Function.update_of_ne hq _ _).symm.trans hc)
  | install header ref hpc => exact bounded_install h hs header ref hpc
  | found req ref c hpc hlook hc hindex =>
    refine bounded_stamp h _ ref rfl rfl ?_ ?_ (fun _ hroom => hroom)
    · intro d hd
      have hnew : d = { c with lastSeq := (s.reassembler.seq + 1) % 2 ^ 64 } :=
        Option.some.inj (hd.symm.trans (Function.update_self _ _ _))
      rw [hnew]
    · intro q d hq hd
      exact ⟨d, (Function.update_of_ne hq _ _).symm.trans hd, rfl⟩
  | enter req ref c hpc hfree hc hdone hdead =>
    exact h.frame _ (by rw [HandlerSystem.move, List.append_nil]) rfl hkept (Nat.le_refl _)
  | consume req ref ctx c outcome hpc hctx hc =>
    refine h.frame _ (stamps_append_of_ne _ _ ?_) ?_ ?_ ?_
    · intro hevent
      have hnone := congrArg HandlerEvent.ref hevent
      rw [ref_ofConsume] at hnone
      cases hnone
    · cases outcome with
      | duplicate | accepted | corrupt | complete => rfl
    · intro q d hd
      by_cases hq : q = ref
      · right
        subst hq
        refine ⟨ctx, hctx, ?_⟩
        cases outcome with
        | duplicate => rw [Option.some.inj (hctx.symm.trans hd)]
        | accepted =>
          have hnew : d = { ctx with toStreamContext := c } :=
            Option.some.inj (hd.symm.trans (Function.update_self _ _ _))
          rw [hnew]
        | corrupt | complete =>
          have hnew : d = { ctx with toStreamContext := c, done := true } :=
            Option.some.inj (hd.symm.trans (Function.update_self _ _ _))
          rw [hnew]
      · exact hkept q d ((heap_settled_of_ne hq).symm.trans hd)
    · cases outcome with
      | duplicate | accepted | corrupt | complete => exact Nat.le_refl _
  | retire req ref data hpc =>
    refine h.frame _ (by rw [HandlerSystem.move, List.append_nil]) ?_ ?_ ?_
    · simp only [HandlerSystem.move, Reassembler.retire]
      split
      · rfl
      · rfl
    · intro q c hc
      rw [HandlerSystem.move, Reassembler.heap_retire] at hc
      exact hkept q c hc
    · simp only [HandlerSystem.move, Reassembler.retire]
      split
      · exact count_erase_le _ _
      · exact Nat.le_refl _
  | deliver ref d hpc =>
    exact h.frame _ (stamps_append_of_ne _ _ (by intro heq; cases heq)) rfl hkept
      (Nat.le_refl _)

end Change

section Runs

variable [DecidableEq Tid]

structure HandlerInv (s : HandlerSystem Tid) : Prop where
  seated : Seated s
  told : Told s
  bounded : Bounded s

omit [DecidableEq Tid] in
theorem handlerInv_start (timeout : Int) : HandlerInv (.start Tid timeout) where
  seated :=
    { sane := ⟨by simp [HandlerSystem.start, Reassembler.new],
        by intro _ _ _ h; simp [HandlerSystem.start, Reassembler.new] at h,
        by simp [HandlerSystem.start, Reassembler.new]⟩
      stands := fun _ => trivial
      private_start := by intro _ _ _ _ h; cases h
      sole := by intro _ _ _ h; cases h
      locks := by intro _ _ _ h; cases h }
  told :=
    { unfinished := by intro _ _ h; cases h
      known := by intro _ _ h; cases h
      delivered := by intro _ _ h; cases h
      carried := by intro _ _ _ h; cases h
      pending := by intro _ _ h; cases h
      once := fun _ => Nat.zero_le _
      dropped := by intro _ h; cases h }
  bounded :=
    { seq := rfl
      stamped := by intro _ _ _ h; cases h
      room := fun _ => Nat.zero_le _ }

def HandlerAction.actor : HandlerAction Tid → Tid
  | .call t _ _ _ => t
  | .advance t _ => t

def HandlerAction.clock : HandlerAction Tid → Int
  | .call _ _ _ _ => 0
  | .advance _ now => now

theorem step_change {s s' : HandlerSystem Tid} {a : HandlerAction Tid} (hs : Seated s)
    (h : s.step a = some s') : HandlerChange s a.actor a.clock s' := by
  cases a with
  | call t newBuf msgType req => exact call_change h 0
  | advance t now => exact advance_change (fun ref href => (hs.stands t).stored ref href) h

theorem handlerInv_step {s s' : HandlerSystem Tid} {a : HandlerAction Tid} (h : HandlerInv s)
    (hstep : s.step a = some s') : HandlerInv s' := by
  have hchange := step_change h.seated hstep
  exact ⟨seated_change h.seated hchange, told_change h.told h.seated hchange,
    bounded_change h.bounded h.seated hchange⟩

theorem handlerInv_reachable {timeout : Int} {guard : HandlerSystem Tid → HandlerAction Tid → Prop}
    {s : HandlerSystem Tid}
    (hs : Reachable HandlerSystem.step guard (.start Tid timeout) s) : HandlerInv s := by
  induction hs with
  | start => exact handlerInv_start timeout
  | step s s' a _ _ hstep ih => exact handlerInv_step ih hstep

/-- The ways for the context `ref` to leave the map, where it is under `id`: its own
call retires it, finished, or a start reclaims it. -/
inductive Leaves (s : HandlerSystem Tid) (id ref : Nat) : HandlerAction Tid → Prop
  | finished (t : Tid) (now : Int) (req : List UInt8) (data : Option (List UInt8))
      (c : GuestContext) (hpc : s.thread t = .retiring req ref data)
      (hc : s.reassembler.heap ref = some c) (hdone : c.done = true) :
      Leaves s id ref (.advance t now)
  | reclaimed (t : Tid) (now : Int) (header : StreamHeader) (fresh : Nat)
      (hpc : s.thread t = .starting header fresh)
      (hreclaims : s.reassembler.Reclaims now header.streamId id ref) :
      Leaves s id ref (.advance t now)

omit [DecidableEq Tid] in
theorem retire_spares (r : Reassembler) (id ref i q : Nat) (hlook : r.streams.lookup i = some q)
    (hq : q ≠ ref) : (r.retire id ref).streams.lookup i = some q := by
  simp only [Reassembler.retire]
  split
  · next hself =>
      rw [lookup_erase_eq]
      split
      · next hi =>
          rw [hi, hself] at hlook
          exact absurd (Option.some.inj hlook).symm hq
      · exact hlook
  · exact hlook

theorem leaves_of_change {s s' : HandlerSystem Tid} {t : Tid} {now : Int} (hs : Seated s)
    (hchange : HandlerChange s t now s') (id ref : Nat)
    (hlook : s.reassembler.streams.lookup id = some ref)
    (hgone : s'.reassembler.streams.lookup id ≠ some ref) : Leaves s id ref (.advance t now) := by
  cases hchange with
  | pass | openStream | found | enter | deliver => exact absurd hlook hgone
  | consume req q ctx c outcome hpc hctx hc =>
    cases outcome with
    | duplicate | accepted | corrupt | complete => exact absurd hlook hgone
  | install header fresh hpc =>
    have hstands := hs.stands t
    rw [hpc] at hstands
    obtain ⟨hloose, buf, hc⟩ := hstands
    exact .reclaimed t now header fresh hpc (Reassembler.startSection_left s.reassembler now
      header.streamId fresh _ hs.sane.injective hc hloose id ref hlook hgone)
  | retire req q data hpc =>
    have hq : ref = q := by
      by_contra hne
      exact hgone (retire_spares _ _ q id ref hlook hne)
    subst hq
    have hstands := hs.stands t
    rw [hpc] at hstands
    obtain ⟨c, hc, hdone⟩ := hstands
    exact .finished t now req data c hpc hc hdone

/-- What the Go reassembler guarantees in every state of every run. -/
structure HandlersSound (s : HandlerSystem Tid) : Prop where
  once : ∀ ref, (deliveries s.trace ref).length ≤ 1
  data : ∀ ref d, .delivered (some ref) d ∈ s.trace → ∃ c, s.reassembler.heap ref = some c ∧
    d.data = concat (payloadAt (arrivals s.trace ref)) c.totalChunks ∧
    d.data.length = c.totalSize ∧ ∀ i, i < c.totalChunks → i ∈ indices (arrivals s.trace ref)
  frozen : ∀ ref, (∃ d, .delivered (some ref) d ∈ s.trace) ∨ .dropped ref ∈ s.trace →
    ∀ a s', s.step a = some s' → ∃ c c', s.reassembler.heap ref = some c ∧
      s'.reassembler.heap ref = some c' ∧ c'.toStreamContext = c.toStreamContext
  retire : ∀ t req ref data now s', s.thread t = .retiring req ref data →
    s.step (.advance t now) = some s' → ∀ id q, q ≠ ref →
    s.reassembler.streams.lookup id = some q → s'.reassembler.streams.lookup id = some q
  stays : ∀ a s' id ref, s.step a = some s' → s.reassembler.streams.lookup id = some ref →
    s'.reassembler.streams.lookup id ≠ some ref → Leaves s id ref a
  bound : stamps s.trace < 2 ^ 64 → count s.reassembler.streams ≤ MaxConcurrentStreams

theorem handlers_sound (timeout : Int) (s : HandlerSystem Tid)
    (hs : Reachable HandlerSystem.step (fun _ _ => True) (.start Tid timeout) s) :
    HandlersSound s := by
  obtain ⟨hseated, htold, hbounded⟩ := handlerInv_reachable hs
  refine ⟨htold.once, ?_, ?_, ?_, ?_, hbounded.room⟩
  · intro ref d hd
    obtain ⟨c, hc, -, -, hdata, hlength, hall⟩ := htold.delivered ref d hd
    exact ⟨c, hc, hdata, hlength, hall⟩
  · intro ref hfinal a s' hstep
    obtain ⟨c, hc, hdone⟩ : ∃ c, s.reassembler.heap ref = some c ∧ c.done = true := by
      rcases hfinal with ⟨d, hd⟩ | hdropped
      · obtain ⟨c, hc, hdone, -⟩ := htold.delivered ref d hd
        exact ⟨c, hc, hdone⟩
      · exact htold.dropped ref hdropped
    obtain ⟨⟨c', hc', hsame, -⟩, -⟩ :=
      frozen_change hseated (step_change hseated hstep) ref c hc hdone
    exact ⟨c, c', hc, hc', hsame⟩
  · intro t req ref data now s' hpc hstep id q hq hlook
    simp only [HandlerSystem.step, hpc, handlerStep, Option.map_some] at hstep
    cases hstep
    exact retire_spares _ _ ref id q hlook hq
  · intro a s' id ref hstep hlook hgone
    have hleaves := leaves_of_change hseated (step_change hseated hstep) id ref hlook hgone
    cases a with
    | advance t now => exact hleaves
    | call t newBuf msgType req =>
      simp only [HandlerSystem.step] at hstep
      split at hstep
      · obtain ⟨⟨r, pc⟩, hbegin, rfl⟩ := Option.map_eq_some_iff.mp hstep
        refine absurd ?_ hgone
        have hstreams : r.streams = s.reassembler.streams := by
          simp only [beginCall] at hbegin
          repeat' split at hbegin
          all_goals cases hbegin
          all_goals rfl
        change r.streams.lookup id = some ref
        rw [hstreams]
        exact hlook
      · cases hstep

end Runs

def soleChunkStart : List UInt8 := putStreamHeader ⟨7, 1, 1, 9⟩

def soleChunk : List UInt8 := putChunkHeader ⟨7, 0, 1, 0, 0⟩ ++ [5]

/-- Two calls bring the same chunk; the second one takes the context lock when the first
has completed the stream, and is refused. -/
def racingChunks : List (HandlerAction Bool) :=
  [.call true (fun n => .replicate n 0) .streamStart soleChunkStart, .advance true 0,
    .advance true 0, .call true (fun n => .replicate n 0) .streamChunk soleChunk,
    .call false (fun n => .replicate n 0) .streamChunk soleChunk, .advance true 0,
    .advance false 0, .advance false 0, .advance false 0, .advance true 0, .advance false 0,
    .advance false 0]

theorem handlers_sound_racingChunks :
    ∃ s : HandlerSystem Bool, s.thread true = .answering .systemError ∧
      deliveries s.trace 0 = [⟨7, 9, [5]⟩] ∧ HandlersSound s := by
  obtain ⟨s, hreach, htest⟩ := exists_reachable_of_run HandlerSystem.step (.start Bool 0)
    racingChunks
    (fun s => s.thread true = .answering .systemError ∧ deliveries s.trace 0 = [⟨7, 9, [5]⟩])
    (by decide)
  obtain ⟨hrefused, hdelivered⟩ := of_decide_eq_true htest
  exact ⟨s, hrefused, hdelivered, handlers_sound 0 s hreach⟩

end ShmIpc.Stream.Go
