import ShmIpc.Stream.HandlerSafety

/-!
Contexts that a start has reclaimed. The dead flag is set under the map mutex and read
once, right after a chunk call has taken the context lock; a call that is past this test
when the flag is set goes on to write into the context, and may deliver it after the
start has returned. Where no start reclaims a context that another call works on past
the test, a reclaimed context stays as it is and is never delivered.
-/

namespace ShmIpc.Stream.Go
open Library

/-- The context a call may still write to or deliver without looking at the dead flag. -/
def HandlerPc.past : HandlerPc → Option Nat
  | .holding _ ref => some ref
  | .retiring _ ref (some _) => some ref
  | .delivering ref _ => ref
  | .idle | .starting _ _ | .looking _ | .entering _ _ | .retiring _ _ none | .answering _ => none

variable {Tid : Type}

/-- The start that takes this step, if it is one, reclaims no context that a call works
on past its retired test. -/
def Considerate (s : HandlerSystem Tid) : HandlerAction Tid → Prop
  | .call _ _ _ _ => True
  | .advance t now =>
    match s.thread t with
    | .starting header _ => ∀ u id ref, (s.thread u).past = some ref →
        ¬ s.reassembler.Reclaims now header.streamId id ref
    | _ => True

/-- No call is past the retired test of a dead context. -/
def Buried (s : HandlerSystem Tid) : Prop :=
  ∀ ref c u, s.reassembler.heap ref = some c → c.dead = true → (s.thread u).past ≠ some ref

/-- From `s` to `s'` nothing is written to the context `ref` and nothing delivered from
it. -/
def Silent (s s' : HandlerSystem Tid) (ref : Nat) : Prop :=
  ∃ c c', s.reassembler.heap ref = some c ∧ s'.reassembler.heap ref = some c' ∧
    c'.toStreamContext = c.toStreamContext ∧ deliveries s'.trace ref = deliveries s.trace ref

theorem HandlerPc.past_of_ref_eq_none {pc : HandlerPc} (h : pc.ref = none) : pc.past = none := by
  cases pc with
  | idle | starting | looking | entering | answering => rfl
  | holding => cases h
  | retiring => cases h
  | delivering => exact h

theorem HandlerPc.past_afterConsume {req : List UInt8} {q ref : Nat} {outcome : ChunkOutcome}
    (h : (HandlerPc.afterConsume req q outcome).past = some ref) : ref = q := by
  cases outcome with
  | duplicate | accepted | corrupt => cases h
  | complete data => exact (Option.some.inj h).symm

theorem HandlerPc.past_afterRetire {r : Reassembler} {req : List UInt8} {q ref : Nat}
    {data : Option (List UInt8)} (h : (HandlerPc.afterRetire r req q data).past = some ref) :
    (HandlerPc.retiring req q data).past = some ref := by
  cases data with
  | none => cases h
  | some data => exact h

theorem dead_settled {r : Reassembler} {q ref : Nat} {ctx d : GuestContext} {c : StreamContext}
    {outcome : ChunkOutcome} (hctx : r.heap q = some ctx)
    (hd : (r.settled q ctx c outcome).heap ref = some d) :
    ∃ e, r.heap ref = some e ∧ e.dead = d.dead := by
  by_cases hq : ref = q
  · subst hq
    refine ⟨ctx, hctx, ?_⟩
    cases outcome with
    | duplicate =>
      have hsame : ctx = d := Option.some.inj (hctx.symm.trans hd)
      rw [hsame]
    | accepted =>
      have hnew : d = { ctx with toStreamContext := c } :=
        Option.some.inj (hd.symm.trans (Function.update_self _ _ _))
      rw [hnew]
    | corrupt | complete =>
      have hnew : d = { ctx with toStreamContext := c, done := true } :=
        Option.some.inj (hd.symm.trans (Function.update_self _ _ _))
      rw [hnew]
  · rw [heap_settled_of_ne hq] at hd
    exact ⟨d, hd, rfl⟩

section Step

variable [DecidableEq Tid] {s s' : HandlerSystem Tid} {t : Tid} {now : Int}

theorem past_change (hchange : HandlerChange s t now s') {u : Tid} {ref : Nat}
    (hpast : (s'.thread u).past = some ref) :
    (s.thread u).past = some ref ∨
      (s'.reassembler = s.reassembler ∧ ∃ c, s.reassembler.heap ref = some c ∧ c.dead = false) := by
  by_cases hu : u = t
  case neg =>
    have hother : s'.thread u = s.thread u := by
      cases hchange with
      | pass | openStream | install | found | enter | consume | retire | deliver =>
        exact move_other _ _ _ _ _ _ hu
    rw [hother] at hpast
    exact Or.inl hpast
  subst hu
  cases hchange with
  | pass pc hfrom hto =>
    rw [move_self, HandlerPc.past_of_ref_eq_none hto] at hpast
    cases hpast
  | openStream | install | found | deliver =>
    rw [move_self] at hpast
    cases hpast
  | enter req q c hpc hfree hc hdone hdead =>
    rw [move_self] at hpast
    cases hpast
    exact Or.inr ⟨rfl, c, hc, hdead⟩
  | consume req q ctx c outcome hpc hctx hc =>
    rw [move_self] at hpast
    rw [hpc, HandlerPc.past_afterConsume hpast]
    exact Or.inl rfl
  | retire req q data hpc =>
    rw [move_self] at hpast
    rw [hpc]
    exact Or.inl (HandlerPc.past_afterRetire hpast)

theorem dead_change (hs : Seated s) (hchange : HandlerChange s t now s') {ref : Nat}
    {d : GuestContext} (hd : s'.reassembler.heap ref = some d) (hdead : d.dead = true) :
    (∃ c, s.reassembler.heap ref = some c ∧ c.dead = true) ∨
      ∃ header fresh id, s.thread t = .starting header fresh ∧
        s.reassembler.Reclaims now header.streamId id ref := by
  cases hchange with
  | pass | enter | deliver => exact Or.inl ⟨d, hd, hdead⟩
  | openStream header buf hpc hbuf hsize hchunks hpos =>
    by_cases hnew : ref = s.reassembler.allocated
    · subst hnew
      have hfresh : d = .new header buf :=
        Option.some.inj (hd.symm.trans (Function.update_self _ _ _))
      rw [hfresh] at hdead
      cases hdead
    · exact Or.inl ⟨d, (Function.update_of_ne hnew _ _).symm.trans hd, hdead⟩
  | install header fresh hpc =>
    have hstands := hs.stands t
    rw [hpc] at hstands
    obtain ⟨hloose, buf, hc⟩ := hstands
    by_cases hnew : ref = fresh
    · subst hnew
      obtain ⟨seq, started, hself⟩ := (Reassembler.installed_startSection s.reassembler now
        header.streamId ref _ hs.sane.injective hc hloose).heap_self
      have hfresh := Option.some.inj (hd.symm.trans hself)
      rw [hfresh] at hdead
      cases hdead
    · rcases Reassembler.heap_startSection s.reassembler now header.streamId fresh _
        hs.sane.injective hc hloose ref hnew with hsame | ⟨⟨id, hreclaims⟩, -⟩
      · exact Or.inl ⟨d, hsame.symm.trans hd, hdead⟩
      · exact Or.inr ⟨header, fresh, id, hpc, hreclaims⟩
  | found req q c hpc hlook hc hindex =>
    by_cases hq : ref = q
    · subst hq
      have hstamped := Option.some.inj (hd.symm.trans (Function.update_self _ _ _))
      rw [hstamped] at hdead
      exact Or.inl ⟨c, hc, hdead⟩
    · exact Or.inl ⟨d, (Function.update_of_ne hq _ _).symm.trans hd, hdead⟩
  | consume req q ctx c outcome hpc hctx hc =>
    obtain ⟨e, he, hsame⟩ := dead_settled hctx hd
    exact Or.inl ⟨e, he, hsame.trans hdead⟩
  | retire req q data hpc =>
    refine Or.inl ⟨d, ?_, hdead⟩
    rw [← Reassembler.heap_retire (r := s.reassembler) (parseChunkHeader req).streamId q]
    exact hd

theorem silent_change (hs : Seated s) (hchange : HandlerChange s t now s') {ref : Nat}
    {c : GuestContext} (hc : s.reassembler.heap ref = some c) (hdead : c.dead = true)
    (hpast : (s.thread t).past ≠ some ref) :
    Silent s s' ref ∧ ∃ c', s'.reassembler.heap ref = some c' ∧ c'.dead = true := by
  have hkeep : s'.reassembler.heap ref = some c → deliveries s'.trace ref = deliveries s.trace ref →
      Silent s s' ref ∧ ∃ c', s'.reassembler.heap ref = some c' ∧ c'.dead = true :=
    fun hsame hdeliveries => ⟨⟨c, c, hc, hsame, rfl, hdeliveries⟩, c, hsame, hdead⟩
  have hnil : deliveries (s.trace ++ []) ref = deliveries s.trace ref := by rw [List.append_nil]
  have hother : ∀ e : HandlerEvent, e.ref ≠ some ref →
      deliveries (s.trace ++ [e]) ref = deliveries s.trace ref :=
    fun e he => deliveries_append_of_ne s.trace e ref he
  cases hchange with
  | pass | enter => exact hkeep hc hnil
  | openStream header buf hpc hbuf hsize hchunks hpos =>
    exact hkeep (Reassembler.heap_allocate hs.sane _ hc) hnil
  | install header fresh hpc =>
    have hstands := hs.stands t
    rw [hpc] at hstands
    obtain ⟨hloose, buf, hfresh⟩ := hstands
    have hnew : ref ≠ fresh := by
      rintro rfl
      rw [hfresh] at hc
      cases hc
      cases hdead
    have hstamped := hother .stamped (by intro h; cases h)
    rcases Reassembler.heap_startSection s.reassembler now header.streamId fresh _
      hs.sane.injective hfresh hloose ref hnew with hsame | ⟨-, hburied⟩
    · exact hkeep (hsame.trans hc) hstamped
    · rw [hc] at hburied
      exact ⟨⟨c, Reassembler.bury c, hc, hburied, rfl, hstamped⟩, Reassembler.bury c, hburied,
        rfl⟩
  | found req q d hpc hlook hd hindex =>
    obtain ⟨e, he, halive⟩ := hs.sane.mapped _ q hlook
    have hne : ref ≠ q := by
      rintro rfl
      rw [hc] at he
      cases he
      rw [hdead] at halive
      cases halive
    exact hkeep ((Function.update_of_ne hne _ _).trans hc) (hother .stamped (by intro h; cases h))
  | consume req q ctx d outcome hpc hctx hd =>
    have hne : ref ≠ q := by
      rintro rfl
      rw [hpc] at hpast
      exact hpast rfl
    refine hkeep ((heap_settled_of_ne hne).trans hc) (hother _ ?_)
    rw [ref_ofConsume]
    exact fun h => hne (Option.some.inj h).symm
  | retire req q data hpc =>
    refine hkeep ?_ hnil
    exact (congrFun (Reassembler.heap_retire (parseChunkHeader req).streamId q) ref).trans hc
  | deliver q d hpc =>
    refine hkeep hc (hother _ ?_)
    rw [hpc] at hpast
    exact hpast

theorem buried_step {a : HandlerAction Tid} (h : Buried s) (hs : Seated s)
    (hguard : Considerate s a) (hstep : s.step a = some s') : Buried s' := by
  intro ref d u hd hdead hpast
  have hchange := step_change hs hstep
  rcases dead_change hs hchange hd hdead with ⟨c, hc, hold⟩ | ⟨header, fresh, id, hpc, hreclaims⟩
  · rcases past_change hchange hpast with hbefore | ⟨-, e, he, halive⟩
    · exact h ref c u hc hold hbefore
    · rw [hc] at he
      cases he
      rw [hold] at halive
      cases halive
  · cases a with
    | call v newBuf msgType req =>
      simp only [HandlerSystem.step] at hstep
      split at hstep
      · next hidle => exact absurd (hidle.symm.trans hpc) (by intro heq; cases heq)
      · cases hstep
    | advance v clock =>
      change s.thread v = .starting header fresh at hpc
      simp only [Considerate, hpc] at hguard
      rcases past_change hchange hpast with hbefore | ⟨hsame, e, he, halive⟩
      · exact hguard u id ref hbefore hreclaims
      · rw [hsame, he] at hd
        cases hd
        rw [hdead] at halive
        cases halive

end Step

section Run

variable [DecidableEq Tid] {s s' : HandlerSystem Tid} {ref : Nat}

theorem buried_reachable {timeout : Int}
    (hs : Reachable HandlerSystem.step Considerate (.start Tid timeout) s) : Buried s := by
  induction hs with
  | start =>
    intro ref c u hc
    cases hc
  | step s s' a hs hguard hstep ih =>
    exact buried_step ih (handlerInv_reachable hs).seated hguard hstep

theorem silent_of_dead {timeout : Int}
    (hs : Reachable HandlerSystem.step Considerate (.start Tid timeout) s) {c : GuestContext}
    (hc : s.reassembler.heap ref = some c) (hdead : c.dead = true)
    (hlater : Reachable HandlerSystem.step Considerate s s') :
    Silent s s' ref ∧ ∃ c', s'.reassembler.heap ref = some c' ∧ c'.dead = true := by
  induction hlater with
  | start => exact ⟨⟨c, c, hc, hc, rfl, rfl⟩, c, hc, hdead⟩
  | step s₁ s₂ a hmid hguard hstep ih =>
    obtain ⟨⟨b, b₁, hb, hb₁, hsame, hdeliveries⟩, c₁, hc₁, hdead₁⟩ := ih
    have hreach := hs.trans hmid
    have hseated := (handlerInv_reachable hreach).seated
    obtain ⟨⟨b', b₂, hb', hb₂, hsame', hdeliveries'⟩, hend⟩ :=
      silent_change hseated (step_change hseated hstep) hc₁ hdead₁
        (buried_reachable hreach ref c₁ _ hc₁ hdead₁)
    rw [hb₁] at hb'
    cases hb'
    exact ⟨⟨b, b₂, hb, hb₂, hsame'.trans hsame, hdeliveries'.trans hdeliveries⟩, hend⟩

theorem dead_of_left {t : Tid} {now : Int} {header : StreamHeader} {fresh id : Nat}
    (hs : Seated s) (hpc : s.thread t = .starting header fresh)
    (hstep : s.step (.advance t now) = some s')
    (hlook : s.reassembler.streams.lookup id = some ref)
    (hgone : s'.reassembler.streams.lookup id ≠ some ref) :
    ∃ c, s'.reassembler.heap ref = some c ∧ c.dead = true := by
  have hstands := hs.stands t
  rw [hpc] at hstands
  obtain ⟨hloose, buf, hfresh⟩ := hstands
  simp only [HandlerSystem.step, hpc, handlerStep, Option.map_some] at hstep
  cases hstep
  have hreclaims := Reassembler.startSection_left s.reassembler now header.streamId fresh _
    hs.sane.injective hfresh hloose id ref hlook hgone
  have hne : ref ≠ fresh := fun heq => hloose id (heq ▸ hlook)
  obtain ⟨c, hc, -⟩ := hs.sane.mapped id ref hlook
  refine ⟨Reassembler.bury c, ?_, rfl⟩
  have hburied := hreclaims.heap_cleared
  rw [hc] at hburied
  change (s.reassembler.startSection now header.streamId fresh).heap ref = _
  rw [Reassembler.startSection_eq s.reassembler now header.streamId fresh _ hs.sane.injective
    hfresh hloose]
  exact (Function.update_of_ne hne _ _).trans hburied

/-- A context that a start took out of the map is neither written to nor delivered from
then on. -/
theorem reclaimed_silent (timeout : Int) (s s₁ s₂ : HandlerSystem Tid) (t : Tid) (now : Int)
    (header : StreamHeader) (fresh id ref : Nat)
    (hs : Reachable HandlerSystem.step Considerate (.start Tid timeout) s)
    (hpc : s.thread t = .starting header fresh) (hguard : Considerate s (.advance t now))
    (hstep : s.step (.advance t now) = some s₁)
    (hlook : s.reassembler.streams.lookup id = some ref)
    (hgone : s₁.reassembler.streams.lookup id ≠ some ref)
    (hlater : Reachable HandlerSystem.step Considerate s₁ s₂) : Silent s₁ s₂ ref := by
  obtain ⟨c, hc, hdead⟩ :=
    dead_of_left (handlerInv_reachable hs).seated hpc hstep hlook hgone
  exact (silent_of_dead (.step s s₁ _ hs hguard hstep) hc hdead hlater).1

end Run

/-- A stream is started; a call brings its only chunk as far as `chunkSteps` says; then
the same stream is started again, up to the map section. -/
def restart (chunkSteps : Nat) : List (HandlerAction Bool) :=
  [.call true (fun n => .replicate n 0) .streamStart soleChunkStart, .advance true 0,
    .advance true 0, .call false (fun n => .replicate n 0) .streamChunk soleChunk] ++
  List.replicate chunkSteps (.advance false 0) ++
  [.call true (fun n => .replicate n 0) .streamStart soleChunkStart]

/-- No call is past a retired test. -/
def nonePast (s : HandlerSystem Bool) (_ : HandlerAction Bool) : Bool :=
  (s.thread true).past = none ∧ (s.thread false).past = none

theorem considerate_of_nonePast (s : HandlerSystem Bool) (a : HandlerAction Bool)
    (h : nonePast s a = true) : Considerate s a := by
  obtain ⟨htrue, hfalse⟩ := of_decide_eq_true h
  have hnone : ∀ u, (s.thread u).past = none := by
    intro u
    cases u with
    | true => exact htrue
    | false => exact hfalse
  cases a with
  | call => trivial
  | advance t now =>
    simp only [Considerate]
    split
    · intro u id ref hpast
      rw [hnone u] at hpast
      cases hpast
    · trivial

/-- The restart comes before the chunk call has taken the context lock, so the chunk is
refused. -/
theorem reclaimed_silent_restart :
    ∃ s₁ s₂ : HandlerSystem Bool, (s₁.reassembler.heap 0).map (fun c => c.dead) = some true ∧
      s₂.thread false = .answering .systemError ∧ Silent s₁ s₂ 0 := by
  obtain ⟨s, hs, htest⟩ := exists_reachable_of_exec HandlerSystem.step Considerate
    (.start Bool 0) nonePast considerate_of_nonePast (restart 1)
    (fun s => s.thread true = .starting ⟨7, 1, 1, 9⟩ 1 ∧ nonePast s (.advance true 0) = true ∧
      s.reassembler.streams.lookup 7 = some 0 ∧
      (s.step (.advance true 0)).any fun s₁ =>
        s₁.reassembler.streams.lookup 7 ≠ some 0 ∧
        (s₁.reassembler.heap 0).map (fun c => c.dead) = some true ∧
        (exec (checked nonePast HandlerSystem.step) s₁ [.advance true 0, .advance false 0]).any
          fun s₂ => s₂.thread false = .answering .systemError)
    (by decide)
  obtain ⟨hpc, hnone, hlook, hrest⟩ := of_decide_eq_true htest
  obtain ⟨s₁, hstep, hafter⟩ := (Option.any_eq_true _ _).mp hrest
  obtain ⟨hgone, hdead, hexec⟩ := of_decide_eq_true hafter
  obtain ⟨s₂, hlater, hrefused⟩ := (Option.any_eq_true _ _).mp hexec
  exact ⟨s₁, s₂, hdead, of_decide_eq_true hrefused, reclaimed_silent 0 s s₁ s₂ true 0 _ 1 7 0 hs hpc
    (considerate_of_nonePast s _ hnone) hstep hlook hgone
    (Reachable.trans_exec considerate_of_nonePast _ .start hlater)⟩

/-- The restart comes after the test. It has returned, and its fresh context is in the
map, when the chunk call writes into the reclaimed context and delivers it. -/
theorem reclaimed_delivers :
    ∃ s s₁ s₂ s₃ : HandlerSystem Bool,
      Reachable HandlerSystem.step (fun _ _ => True) (.start Bool DefaultStreamTimeout) s ∧
      s.thread true = .starting ⟨7, 1, 1, 9⟩ 1 ∧ s.step (.advance true 0) = some s₁ ∧
      s.reassembler.streams.lookup 7 = some 0 ∧ s₁.reassembler.streams.lookup 7 = some 1 ∧
      Reachable HandlerSystem.step (fun _ _ => True) s₁ s₂ ∧ s₂.thread true = .idle ∧
      (s₂.reassembler.heap 0).map (fun c => c.buf) = some [0] ∧ deliveries s₂.trace 0 = [] ∧
      Reachable HandlerSystem.step (fun _ _ => True) s₂ s₃ ∧
      (s₃.reassembler.heap 0).map (fun c => c.buf) = some [5] ∧
      deliveries s₃.trace 0 = [⟨7, 9, [5]⟩] := by
  have hfree : ∀ (s : HandlerSystem Bool) (a : HandlerAction Bool), true = true → True :=
    fun _ _ _ => trivial
  obtain ⟨s, hs, htest⟩ := exists_reachable_of_exec HandlerSystem.step (fun _ _ => True)
    (.start Bool DefaultStreamTimeout) (fun _ _ => true) hfree (restart 2)
    (fun s => s.thread true = .starting ⟨7, 1, 1, 9⟩ 1 ∧ s.reassembler.streams.lookup 7 = some 0 ∧
      (s.step (.advance true 0)).any fun s₁ =>
        s₁.reassembler.streams.lookup 7 = some 1 ∧
        (exec (checked (fun _ _ => true) HandlerSystem.step) s₁ [.advance true 0]).any fun s₂ =>
          s₂.thread true = .idle ∧ (s₂.reassembler.heap 0).map (fun c => c.buf) = some [0] ∧
          deliveries s₂.trace 0 = [] ∧
          (exec (checked (fun _ _ => true) HandlerSystem.step) s₂
            (List.replicate 3 (.advance false 0))).any fun s₃ =>
              (s₃.reassembler.heap 0).map (fun c => c.buf) = some [5] ∧
              deliveries s₃.trace 0 = [⟨7, 9, [5]⟩])
    (by decide)
  obtain ⟨hpc, hlook, hrest⟩ := of_decide_eq_true htest
  obtain ⟨s₁, hstep, hafter⟩ := (Option.any_eq_true _ _).mp hrest
  obtain ⟨hfresh, hexec⟩ := of_decide_eq_true hafter
  obtain ⟨s₂, hreturn, htest₂⟩ := (Option.any_eq_true _ _).mp hexec
  obtain ⟨hidle, hbuf, hnone, hexec₂⟩ := of_decide_eq_true htest₂
  obtain ⟨s₃, hlater, htest₃⟩ := (Option.any_eq_true _ _).mp hexec₂
  obtain ⟨hbuf₃, hdelivered⟩ := of_decide_eq_true htest₃
  exact ⟨s, s₁, s₂, s₃, hs, hpc, hstep, hlook, hfresh,
    Reachable.trans_exec hfree _ .start hreturn, hidle, hbuf, hnone,
    Reachable.trans_exec hfree _ .start hlater, hbuf₃, hdelivered⟩

end ShmIpc.Stream.Go
