import ShmIpc.Stream.HandlerInvariant

/-!
Runs of concurrent handler calls. `Seated` says where the calls stand relative to the
contexts they work on, `Told` what the trace tells about the contexts; every step keeps
both.
-/

namespace ShmIpc.Stream.Go
open Library

variable {Tid : Type} [DecidableEq Tid]

/-- What a call relies on about its context. -/
def HandlerPc.Stands (r : Reassembler) : HandlerPc → Prop
  | .starting header ref =>
    (∀ id, r.streams.lookup id ≠ some ref) ∧ ∃ buf, r.heap ref = some (.new header buf)
  | .entering req ref =>
    ∃ c, r.heap ref = some c ∧ (parseChunkHeader req).chunkIndex < c.totalChunks
  | .holding req ref =>
    ∃ c, r.heap ref = some c ∧ c.done = false ∧
      (parseChunkHeader req).chunkIndex < c.totalChunks
  | .retiring _ ref _ => ∃ c, r.heap ref = some c ∧ c.done = true
  | .delivering (some ref) _ => ∃ c, r.heap ref = some c ∧ c.done = true
  | .delivering none _ | .idle | .looking _ | .answering _ => True

structure Seated (s : HandlerSystem Tid) : Prop where
  sane : s.reassembler.Sane
  stands : ∀ t, (s.thread t).Stands s.reassembler
  /-- A context that is not installed yet is known to its own call only. -/
  private_start : ∀ t u header ref, s.thread t = .starting header ref → u ≠ t →
    (s.thread u).ref ≠ some ref
  sole : ∀ t u ref, (s.thread t).owned = some ref → (s.thread u).owned = some ref → t = u
  locks : ∀ t req ref, s.thread t = .holding req ref → s.locked ref = true

theorem HandlerPc.Stands.stored {r : Reassembler} {pc : HandlerPc} (h : pc.Stands r) (ref : Nat)
    (href : pc.ref = some ref) : ∃ c, r.heap ref = some c := by
  cases pc with
  | idle | looking | answering => cases href
  | starting header q =>
    cases href
    obtain ⟨-, buf, hc⟩ := h
    exact ⟨_, hc⟩
  | entering req q | holding req q | retiring req q data =>
    cases href
    obtain ⟨c, hc, -⟩ := h
    exact ⟨c, hc⟩
  | delivering q delivery =>
    cases q with
    | none => cases href
    | some q =>
      cases href
      obtain ⟨c, hc, -⟩ := h
      exact ⟨c, hc⟩

theorem HandlerPc.Stands.frame {r r' : Reassembler} {own : Option Nat} {pc : HandlerPc}
    (h : pc.Stands r) (hframes : r.Frames r' own)
    (hown : ∀ ref, pc.owned = some ref → own ≠ some ref) : pc.Stands r' := by
  cases pc with
  | idle | looking | answering => trivial
  | starting header ref =>
    obtain ⟨hloose, buf, hc⟩ := h
    obtain ⟨hc', hloose'⟩ := hframes.loose ref _ hloose hc (hown ref rfl)
    exact ⟨hloose', buf, hc'⟩
  | entering req ref =>
    obtain ⟨c, hc, hindex⟩ := h
    obtain ⟨c', hc', hsized⟩ := hframes.sized ref c hc
    exact ⟨c', hc', by rw [hsized]; exact hindex⟩
  | holding req ref =>
    obtain ⟨c, hc, hdone, hindex⟩ := h
    obtain ⟨c', hc', hsame, hdone'⟩ := hframes.kept ref c hc (Or.inl (hown ref rfl))
    exact ⟨c', hc', hdone'.trans hdone, by rw [hsame]; exact hindex⟩
  | retiring req ref data =>
    obtain ⟨c, hc, hdone⟩ := h
    obtain ⟨c', hc', -, hdone'⟩ := hframes.kept ref c hc (Or.inr hdone)
    exact ⟨c', hc', hdone'.trans hdone⟩
  | delivering ref delivery =>
    cases ref with
    | none => trivial
    | some ref =>
      obtain ⟨c, hc, hdone⟩ := h
      obtain ⟨c', hc', -, hdone'⟩ := hframes.kept ref c hc (Or.inr hdone)
      exact ⟨c', hc', hdone'.trans hdone⟩

section Move

variable {s : HandlerSystem Tid} {t : Tid} {r : Reassembler} {locked : Nat → Bool}
  {pc : HandlerPc} {events : List HandlerEvent}

theorem Seated.move (h : Seated s) (own : Option Nat) (hsane : r.Sane)
    (hframes : s.reassembler.Frames r own)
    (hown : ∀ ref, own = some ref → (s.thread t).owned = some ref)
    (hself : pc.Stands r)
    (hprivate : ∀ header ref, pc = .starting header ref → ∀ u, u ≠ t →
      (s.thread u).ref ≠ some ref)
    (hpublic : ∀ ref, pc.ref = some ref → ∀ u, u ≠ t → ∀ header,
      s.thread u ≠ .starting header ref)
    (hsole : ∀ ref, pc.owned = some ref → ∀ u, u ≠ t → (s.thread u).owned ≠ some ref)
    (hheld : ∀ u, u ≠ t → ∀ req ref, s.thread u = .holding req ref → locked ref = true)
    (hlock : ∀ req ref, pc = .holding req ref → locked ref = true) :
    Seated (s.move t r locked pc events) := by
  have hother : ∀ u, u ≠ t → (s.move t r locked pc events).thread u = s.thread u :=
    fun u hu => move_other s t r locked pc events hu
  have hmine : (s.move t r locked pc events).thread t = pc := move_self s t r locked pc events
  refine ⟨hsane, ?_, ?_, ?_, ?_⟩
  · intro u
    by_cases hu : u = t
    · rw [hu, hmine]
      exact hself
    · rw [hother u hu]
      refine (h.stands u).frame hframes ?_
      intro ref href howns
      exact hu (h.sole u t ref href (hown ref howns))
  · intro u v header ref hpc hv
    by_cases hu : u = t
    · subst hu
      rw [hmine] at hpc
      rw [hother v hv]
      exact hprivate header ref hpc v hv
    · rw [hother u hu] at hpc
      by_cases hvt : v = t
      · rw [hvt, hmine]
        intro href
        exact hpublic ref href u hu header hpc
      · rw [hother v hvt]
        exact h.private_start u v header ref hpc hv
  · intro u v ref hu hv
    by_cases hut : u = t
    · by_cases hvt : v = t
      · rw [hut, hvt]
      · rw [hut, hmine] at hu
        rw [hother v hvt] at hv
        exact absurd hv (hsole ref hu v hvt)
    · by_cases hvt : v = t
      · rw [hvt, hmine] at hv
        rw [hother u hut] at hu
        exact absurd hu (hsole ref hv u hut)
      · rw [hother u hut] at hu
        rw [hother v hvt] at hv
        exact h.sole u v ref hu hv
  · intro u req ref hpc
    by_cases hu : u = t
    · rw [hu, hmine] at hpc
      exact hlock req ref hpc
    · rw [hother u hu] at hpc
      exact hheld u hu req ref hpc

theorem not_starting_of_ref_none {pc : HandlerPc} (h : pc.ref = none) (header : StreamHeader)
    (ref : Nat) : pc ≠ .starting header ref := by
  rintro rfl
  cases h

theorem not_holding_of_ref_none {pc : HandlerPc} (h : pc.ref = none) (req : List UInt8)
    (ref : Nat) : pc ≠ .holding req ref := by
  rintro rfl
  cases h

theorem owned_of_ref_none {pc : HandlerPc} (h : pc.ref = none) (ref : Nat) :
    pc.owned ≠ some ref := by
  intro howned
  rw [HandlerPc.ref_of_owned howned] at h
  cases h

theorem Seated.leave (h : Seated s) (own : Option Nat) (hsane : r.Sane)
    (hframes : s.reassembler.Frames r own)
    (hown : ∀ ref, own = some ref → (s.thread t).owned = some ref)
    (href : pc.ref = none) (hself : pc.Stands r)
    (hheld : ∀ u, u ≠ t → ∀ req ref, s.thread u = .holding req ref → locked ref = true) :
    Seated (s.move t r locked pc events) := by
  refine h.move own hsane hframes hown hself ?_ ?_ ?_ hheld ?_
  · intro header ref hpc
    exact absurd hpc (not_starting_of_ref_none href header ref)
  · intro ref hpc
    rw [href] at hpc
    cases hpc
  · intro ref hpc
    exact absurd hpc (owned_of_ref_none href ref)
  · intro req ref hpc
    exact absurd hpc (not_holding_of_ref_none href req ref)

theorem Seated.keep (h : Seated s) (own : Option Nat) (hsane : r.Sane)
    (hframes : s.reassembler.Frames r own) (ref : Nat)
    (howned : (s.thread t).owned = some ref) (hown : ∀ q, own = some q → q = ref)
    (hpc : pc.ref = some ref) (hnew : ∀ header q, pc ≠ .starting header q)
    (hfree : ∀ req q, pc ≠ .holding req q) (hself : pc.Stands r)
    (hheld : ∀ u, u ≠ t → ∀ req q, s.thread u = .holding req q → locked q = true) :
    Seated (s.move t r locked pc events) := by
  refine h.move own hsane hframes ?_ hself ?_ ?_ ?_ hheld ?_
  · intro q hq
    rw [hown q hq]
    exact howned
  · intro header q heq
    exact absurd heq (hnew header q)
  · intro q hq u hu header hstart
    rw [hpc] at hq
    cases hq
    have hsame := h.sole u t ref (by rw [hstart]; rfl) howned
    exact hu hsame
  · intro q hq u hu howns
    rw [HandlerPc.ref_of_owned hq] at hpc
    cases hpc
    exact hu (h.sole u t ref howns howned)
  · intro req q heq
    exact absurd heq (hfree req q)

end Move

section Settle

variable {r : Reassembler} {ref : Nat} {ctx : GuestContext} {c : StreamContext}
  {outcome : ChunkOutcome}

theorem sane_settled (h : r.Sane) (hctx : r.heap ref = some ctx) :
    (r.settled ref ctx c outcome).Sane := by
  cases outcome with
  | duplicate => exact h
  | accepted | corrupt | complete => exact Reassembler.sane_setContext h hctx rfl

theorem frames_settled (hctx : r.heap ref = some ctx) (hdone : ctx.done = false)
    (hchunks : c.totalChunks = ctx.totalChunks) :
    r.Frames (r.settled ref ctx c outcome) (some ref) := by
  cases outcome with
  | duplicate => exact Reassembler.frames_refl r _
  | accepted | corrupt | complete => exact Reassembler.frames_setContext hctx hdone hchunks

theorem done_settled (h : outcome ≠ .duplicate) (h' : outcome ≠ .accepted) :
    (r.settled ref ctx c outcome).heap ref =
      some { ctx with toStreamContext := c, done := true } := by
  cases outcome with
  | duplicate => exact absurd rfl h
  | accepted => exact absurd rfl h'
  | corrupt | complete => exact Function.update_self _ _ _

end Settle

theorem seated_consume {s : HandlerSystem Tid} {t : Tid} (h : Seated s) (req : List UInt8)
    (ref : Nat) (ctx : GuestContext) (c : StreamContext) (outcome : ChunkOutcome)
    (hpc : s.thread t = .holding req ref) (hctx : s.reassembler.heap ref = some ctx)
    (hc : ctx.toStreamContext.consume MaxParkedChunks false (parseChunkHeader req).chunkIndex
      (parseChunkHeader req).dstOffset (chunkPayload req) = (c, outcome)) :
    Seated (s.move t (s.reassembler.settled ref ctx c outcome)
      (Function.update s.locked ref false) (.afterConsume req ref outcome)
      [.ofConsume req ref outcome]) := by
  have hstands := h.stands t
  rw [hpc] at hstands
  obtain ⟨ctx', hctx', hdone, -⟩ := hstands
  rw [hctx] at hctx'
  cases hctx'
  have howned : (s.thread t).owned = some ref := by rw [hpc]; rfl
  have hchunks : c.totalChunks = ctx.totalChunks := by
    have hsame := sameStream_consume ctx.toStreamContext MaxParkedChunks false (chunkArrival req)
    simpa only [chunkArrival, hc] using hsame.totalChunks
  have hframes : s.reassembler.Frames (s.reassembler.settled ref ctx c outcome) (some ref) :=
    frames_settled hctx hdone hchunks
  have hheld : ∀ u, u ≠ t → ∀ req' q, s.thread u = .holding req' q →
      Function.update s.locked ref false q = true := by
    intro u hu req' q hholding
    have hq : q ≠ ref := by
      rintro rfl
      exact hu (h.sole u t q (by rw [hholding]; rfl) howned)
    rw [Function.update_of_ne hq]
    exact h.locks u req' q hholding
  have hown : ∀ q, some ref = some q → q = ref := fun q hq => (Option.some.inj hq).symm
  cases outcome with
  | duplicate | accepted =>
    exact h.leave (some ref) (sane_settled h.sane hctx) hframes
      (fun q hq => by cases hq; exact howned) rfl trivial hheld
  | corrupt | complete data =>
    exact h.keep (some ref) (sane_settled h.sane hctx) hframes ref howned hown rfl
      (by intro _ _ heq; cases heq) (by intro _ _ heq; cases heq)
      ⟨_, done_settled (by simp) (by simp), rfl⟩ hheld

theorem seated_enter {s : HandlerSystem Tid} {t : Tid} (h : Seated s) (req : List UInt8)
    (ref : Nat) (c : GuestContext) (hpc : s.thread t = .entering req ref)
    (hfree : s.locked ref = false) (hc : s.reassembler.heap ref = some c)
    (hdone : c.done = false) :
    Seated (s.move t s.reassembler (Function.update s.locked ref true) (.holding req ref) []) := by
  have hstands := h.stands t
  rw [hpc] at hstands
  obtain ⟨c', hc', hindex⟩ := hstands
  rw [hc] at hc'
  cases hc'
  have href : (s.thread t).ref = some ref := by rw [hpc]; rfl
  have hpublic : ∀ u, u ≠ t → ∀ header, s.thread u ≠ .starting header ref := by
    intro u hu header hstart
    exact h.private_start u t header ref hstart (Ne.symm hu) href
  refine h.move none h.sane (Reassembler.frames_refl _ _) (by intro q hq; cases hq)
    ⟨c, hc, hdone, hindex⟩ (by intro _ _ heq; cases heq) ?_ ?_ ?_ ?_
  · intro q hq
    cases hq
    exact hpublic
  · intro q hq u hu howns
    cases hq
    have hu_stands := h.stands u
    cases hpcu : s.thread u with
    | idle | looking | answering | entering => rw [hpcu] at howns; cases howns
    | starting header q =>
      rw [hpcu] at howns
      cases howns
      exact hpublic u hu header hpcu
    | holding req' q =>
      rw [hpcu] at howns
      cases howns
      have hlocked := h.locks u req' ref hpcu
      rw [hfree] at hlocked
      cases hlocked
    | retiring req' q data | delivering q delivery =>
      rw [hpcu] at howns hu_stands
      cases howns
      obtain ⟨d, hd, hfinished⟩ := hu_stands
      rw [hc] at hd
      cases hd
      rw [hdone] at hfinished
      cases hfinished
  · intro u hu req' q hholding
    rw [Function.update_apply]
    split
    · rfl
    · exact h.locks u req' q hholding
  · intro req' q heq
    cases heq
    exact Function.update_self _ _ _

theorem seated_change {s s' : HandlerSystem Tid} {t : Tid} {now : Int} (h : Seated s)
    (hchange : HandlerChange s t now s') : Seated s' := by
  have hlocks : ∀ u, u ≠ t → ∀ req ref, s.thread u = .holding req ref → s.locked ref = true :=
    fun u _ req ref hpc => h.locks u req ref hpc
  cases hchange with
  | pass pc hfrom hto =>
    refine h.leave none h.sane (Reassembler.frames_refl _ _) (by intro q hq; cases hq) hto ?_
      hlocks
    cases pc with
    | idle | looking | answering => trivial
    | starting | entering | holding | retiring => cases hto
    | delivering ref delivery =>
      cases ref with
      | none => trivial
      | some ref => cases hto
  | openStream header buf hpc hbuf hsize hchunks hpos =>
    have hunknown : ∀ u, (s.thread u).ref ≠ some s.reassembler.allocated := by
      intro u href
      obtain ⟨c, hc⟩ := (h.stands u).stored _ href
      exact Nat.lt_irrefl _ (h.sane.below hc)
    refine h.move none (Reassembler.sane_allocate h.sane _)
      (Reassembler.frames_allocate h.sane _ _) (by intro q hq; cases hq)
      ⟨h.sane.unmapped_allocated, buf, Function.update_self _ _ _⟩ ?_ ?_ ?_ hlocks
      (by intro _ _ heq; cases heq)
    · intro header' ref heq u _
      cases heq
      exact hunknown u
    · intro ref href u _ header' hstart
      cases href
      exact hunknown u (by rw [hstart]; rfl)
    · intro ref href u _ howns
      cases href
      exact hunknown u (HandlerPc.ref_of_owned howns)
  | install header ref hpc =>
    have hstands := h.stands t
    rw [hpc] at hstands
    obtain ⟨hloose, buf, hc⟩ := hstands
    exact h.leave (some ref) (Reassembler.sane_startSection now _ ref _ h.sane hc rfl hloose)
      (Reassembler.frames_startSection now _ ref _ h.sane hc hloose)
      (by intro q hq; cases hq; rw [hpc]; rfl) rfl trivial hlocks
  | found req ref c hpc hlook hc hindex =>
    have hsane : ({ s.reassembler with seq := (s.reassembler.seq + 1) % 2 ^ 64 } :
        Reassembler).Sane := ⟨h.sane.mapped, h.sane.injective, h.sane.stored⟩
    refine h.move none (Reassembler.sane_setContext hsane hc rfl)
      (Reassembler.frames_stamp hc _ none ⟨_, hlook⟩) (by intro q hq; cases hq)
      ⟨_, Function.update_self _ _ _, hindex⟩ (by intro _ _ heq; cases heq) ?_
      (by intro q hq; cases hq) hlocks (by intro _ _ heq; cases heq)
    intro q hq u _ header hstart
    cases hq
    have hstands := h.stands u
    rw [hstart] at hstands
    exact hstands.1 _ hlook
  | enter req ref c hpc hfree hc hdone hdead => exact seated_enter h req ref c hpc hfree hc hdone
  | consume req ref ctx c outcome hpc hctx hc =>
    exact seated_consume h req ref ctx c outcome hpc hctx hc
  | retire req ref data hpc =>
    have hstands := h.stands t
    rw [hpc] at hstands
    obtain ⟨c, hc, hdone⟩ := hstands
    have hheap := Reassembler.heap_retire (r := s.reassembler) (parseChunkHeader req).streamId ref
    have howned : (s.thread t).owned = some ref := by rw [hpc]; rfl
    cases data with
    | none =>
      exact h.leave none (Reassembler.sane_retire _ ref h.sane)
        (Reassembler.frames_retire _ ref none) (by intro q hq; cases hq) rfl trivial hlocks
    | some data =>
      exact h.keep none (Reassembler.sane_retire _ ref h.sane)
        (Reassembler.frames_retire _ ref none) ref howned (by intro q hq; cases hq) rfl
        (by intro _ _ heq; cases heq) (by intro _ _ heq; cases heq)
        ⟨c, by rw [hheap]; exact hc, hdone⟩ hlocks
  | deliver ref delivery hpc =>
    exact h.leave none h.sane (Reassembler.frames_refl _ _) (by intro q hq; cases hq) rfl trivial
      hlocks

end ShmIpc.Stream.Go
