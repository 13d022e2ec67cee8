import ShmIpc.Stream.Delivery
import ShmIpc.Stream.HandlerThreads

/-!
What holds of the Go reassembler while any number of handler calls are under way. The
shape of the map and the heap is kept by every section. A context is worked on past its
retired test by one call at a time, and a context marked done stays as it is; from these
two facts follow the single delivery of a context and what the delivery contains.
-/

namespace ShmIpc.Stream.Go
open Library

namespace Reassembler

/-- The map points, injectively, at contexts that are not reclaimed. -/
structure Sane (r : Reassembler) : Prop where
  mapped : ∀ id ref, r.streams.lookup id = some ref → ∃ c, r.heap ref = some c ∧ c.dead = false
  injective : Injective r
  stored : ∀ ref, (r.heap ref).isSome = true ↔ ref < r.allocated

/-- What a section does to the contexts its call does not own, and to finished ones. -/
structure Frames (r r' : Reassembler) (own : Option Nat) : Prop where
  kept : ∀ ref c, r.heap ref = some c → own ≠ some ref ∨ c.done = true →
    ∃ c', r'.heap ref = some c' ∧ c'.toStreamContext = c.toStreamContext ∧ c'.done = c.done
  loose : ∀ ref c, (∀ id, r.streams.lookup id ≠ some ref) → r.heap ref = some c →
    own ≠ some ref → r'.heap ref = some c ∧ ∀ id, r'.streams.lookup id ≠ some ref
  sized : ∀ ref c, r.heap ref = some c →
    ∃ c', r'.heap ref = some c' ∧ c'.totalChunks = c.totalChunks

theorem frames_refl (r : Reassembler) (own : Option Nat) : Frames r r own :=
  ⟨fun _ c hc _ => ⟨c, hc, rfl, rfl⟩, fun _ _ hloose hc _ => ⟨hc, hloose⟩,
    fun _ c hc => ⟨c, hc, rfl⟩⟩

variable {r : Reassembler}

theorem Sane.below (h : Sane r) {ref : Nat} {c : GuestContext} (hc : r.heap ref = some c) :
    ref < r.allocated :=
  (h.stored ref).mp (by rw [hc]; rfl)

theorem Sane.unmapped_allocated (h : Sane r) (id : Nat) :
    r.streams.lookup id ≠ some r.allocated := by
  intro hlook
  obtain ⟨c, hc, -⟩ := h.mapped id _ hlook
  exact Nat.lt_irrefl _ (h.below hc)

section Allocate

theorem heap_allocate (h : Sane r) (c : GuestContext) {ref : Nat} {d : GuestContext}
    (hd : r.heap ref = some d) : (r.allocate c).heap ref = some d := by
  have hne : ref ≠ r.allocated := Nat.ne_of_lt (h.below hd)
  exact (Function.update_of_ne hne _ _).trans hd

theorem sane_allocate (h : Sane r) (c : GuestContext) : Sane (r.allocate c) := by
  refine ⟨?_, h.injective, ?_⟩
  · intro id ref hlook
    obtain ⟨d, hd, hdead⟩ := h.mapped id ref hlook
    exact ⟨d, heap_allocate h c hd, hdead⟩
  · intro ref
    simp only [allocate, setContext, Function.update_apply]
    split
    · next heq => simp [heq]
    · next hne =>
        rw [h.stored ref]
        omega

theorem frames_allocate (h : Sane r) (c : GuestContext) (own : Option Nat) :
    Frames r (r.allocate c) own :=
  ⟨fun _ d hd _ => ⟨d, heap_allocate h c hd, rfl, rfl⟩,
    fun _ _ hloose hd _ => ⟨heap_allocate h c hd, hloose⟩,
    fun _ d hd => ⟨d, heap_allocate h c hd, rfl⟩⟩

end Allocate

section StartSection

variable (now : Int) (streamID ref : Nat) (c : GuestContext)

theorem heap_startSection_kept (h : Sane r) (hc : r.heap ref = some c)
    (hunused : ∀ i, r.streams.lookup i ≠ some ref) (q : Nat) (d : GuestContext)
    (hd : r.heap q = some d) : ∃ d', (r.startSection now streamID ref).heap q = some d' ∧
      d'.toStreamContext = d.toStreamContext ∧ d'.done = d.done := by
  by_cases hq : q = ref
  · subst hq
    rw [hc] at hd
    cases hd
    obtain ⟨seq, started, hself⟩ := (installed_startSection r now streamID q c h.injective hc
      hunused).heap_self
    exact ⟨_, hself, rfl, rfl⟩
  · cases heap_startSection r now streamID ref c h.injective hc hunused q hq with
    | inl hsame => exact ⟨d, hsame.trans hd, rfl, rfl⟩
    | inr hburied =>
      rw [hd] at hburied
      exact ⟨bury d, hburied.2, rfl, rfl⟩

theorem sane_startSection (h : Sane r) (hc : r.heap ref = some c) (hdead : c.dead = false)
    (hunused : ∀ i, r.streams.lookup i ≠ some ref) :
    Sane (r.startSection now streamID ref) := by
  have hinst := installed_startSection r now streamID ref c h.injective hc hunused
  obtain ⟨seq, started, hself⟩ := hinst.heap_self
  refine ⟨?_, ?_, ?_⟩
  · intro id q hlook
    by_cases hid : id = streamID
    · rw [hid, hinst.lookup_self] at hlook
      cases hlook
      exact ⟨_, hself, hdead⟩
    · obtain ⟨hold, hsame⟩ := hinst.others id q hid hlook
      rw [hsame]
      exact h.mapped id q hold
  · intro i j q hi hj
    have hother : ∀ k, k ≠ streamID →
        (r.startSection now streamID ref).streams.lookup k ≠ some ref :=
      fun k hk hlook => hunused k (hinst.others k ref hk hlook).1
    by_cases hi' : i = streamID
    · by_cases hj' : j = streamID
      · rw [hi', hj']
      · rw [hi', hinst.lookup_self] at hi
        cases hi
        exact absurd hj (hother j hj')
    · by_cases hj' : j = streamID
      · rw [hj', hinst.lookup_self] at hj
        cases hj
        exact absurd hi (hother i hi')
      · exact h.injective i j q (hinst.others i q hi' hi).1 (hinst.others j q hj' hj).1
  · intro q
    rw [hinst.allocated, ← h.stored q]
    cases hd : r.heap q with
    | none =>
      have hq : q ≠ ref := by
        rintro rfl
        rw [hc] at hd
        cases hd
      cases heap_startSection r now streamID ref c h.injective hc hunused q hq with
      | inl hsame => rw [hsame, hd]
      | inr hburied => rw [hburied.2, hd, Option.map_none]
    | some d =>
      obtain ⟨d', hd', -⟩ := heap_startSection_kept now streamID ref c h hc hunused q d hd
      rw [hd']
      rfl

theorem frames_startSection (h : Sane r) (hc : r.heap ref = some c)
    (hunused : ∀ i, r.streams.lookup i ≠ some ref) :
    Frames r (r.startSection now streamID ref) (some ref) := by
  have hinst := installed_startSection r now streamID ref c h.injective hc hunused
  refine ⟨?_, ?_, ?_⟩
  · intro q d hd _
    exact heap_startSection_kept now streamID ref c h hc hunused q d hd
  · intro q d hloose hd hown
    have hq : q ≠ ref := fun heq => hown (by rw [heq])
    constructor
    · cases heap_startSection r now streamID ref c h.injective hc hunused q hq with
      | inl hsame => exact hsame.trans hd
      | inr hburied =>
        obtain ⟨id, hreclaims⟩ := hburied.1
        exact absurd hreclaims.lookup (hloose id)
    · intro id hlook
      by_cases hid : id = streamID
      · rw [hid, hinst.lookup_self] at hlook
        exact hq (Option.some.inj hlook).symm
      · exact hloose id (hinst.others id q hid hlook).1
  · intro q d hd
    obtain ⟨d', hd', hsame, -⟩ := heap_startSection_kept now streamID ref c h hc hunused q d hd
    exact ⟨d', hd', congrArg StreamContext.totalChunks hsame⟩

end StartSection

section SetContext

variable {ref : Nat} {c d : GuestContext}

theorem sane_setContext (h : Sane r) (hc : r.heap ref = some c) (hdead : d.dead = c.dead) :
    Sane (r.setContext ref d) := by
  refine ⟨?_, h.injective, ?_⟩
  · intro id q hlook
    obtain ⟨e, he, hlive⟩ := h.mapped id q hlook
    by_cases hq : q = ref
    · subst hq
      rw [hc] at he
      cases he
      exact ⟨d, Function.update_self _ _ _, hdead.trans hlive⟩
    · exact ⟨e, (Function.update_of_ne hq _ _).trans he, hlive⟩
  · intro q
    simp only [setContext, Function.update_apply]
    split
    · next heq =>
        rw [heq]
        simpa using h.below hc
    · exact h.stored q

theorem frames_setContext (hc : r.heap ref = some c) (hdone : c.done = false)
    (hchunks : d.totalChunks = c.totalChunks) : Frames r (r.setContext ref d) (some ref) := by
  refine ⟨?_, ?_, ?_⟩
  · intro q e he hq
    have hne : q ≠ ref := by
      rintro rfl
      rw [hc] at he
      cases he
      cases hq with
      | inl hown => exact hown rfl
      | inr hdone' => rw [hdone] at hdone'; cases hdone'
    exact ⟨e, (Function.update_of_ne hne _ _).trans he, rfl, rfl⟩
  · intro q e hloose he hown
    have hne : q ≠ ref := fun heq => hown (by rw [heq])
    exact ⟨(Function.update_of_ne hne _ _).trans he, hloose⟩
  · intro q e he
    by_cases hq : q = ref
    · subst hq
      rw [hc] at he
      cases he
      exact ⟨d, Function.update_self _ _ _, hchunks⟩
    · exact ⟨e, (Function.update_of_ne hq _ _).trans he, rfl⟩

theorem frames_stamp (hc : r.heap ref = some c) (n : Nat) (own : Option Nat)
    (hmapped : ∃ id, r.streams.lookup id = some ref) :
    Frames r (({ r with seq := n } : Reassembler).setContext ref { c with lastSeq := n }) own := by
  have hkept : ∀ q e, r.heap q = some e →
      ∃ e', Function.update r.heap ref (some { c with lastSeq := n }) q = some e' ∧
        e'.toStreamContext = e.toStreamContext ∧ e'.done = e.done := by
    intro q e he
    by_cases hq : q = ref
    · subst hq
      rw [hc] at he
      cases he
      exact ⟨_, Function.update_self _ _ _, rfl, rfl⟩
    · exact ⟨e, (Function.update_of_ne hq _ _).trans he, rfl, rfl⟩
  refine ⟨fun q e he _ => hkept q e he, ?_, ?_⟩
  · intro q e hloose he _
    obtain ⟨id, hlook⟩ := hmapped
    have hne : q ≠ ref := fun heq => hloose id (heq ▸ hlook)
    exact ⟨(Function.update_of_ne hne _ _).trans he, hloose⟩
  · intro q e he
    obtain ⟨e', he', hsame, -⟩ := hkept q e he
    exact ⟨e', he', congrArg StreamContext.totalChunks hsame⟩

end SetContext

section Retire

variable (id ref : Nat)

theorem lookup_retire {i q : Nat} (h : (r.retire id ref).streams.lookup i = some q) :
    r.streams.lookup i = some q := by
  simp only [retire] at h
  split at h
  · rw [lookup_erase_eq] at h
    split at h
    · cases h
    · exact h
  · exact h

theorem heap_retire : (r.retire id ref).heap = r.heap := by
  simp only [retire]
  split
  · rfl
  · rfl

theorem allocated_retire : (r.retire id ref).allocated = r.allocated := by
  simp only [retire]
  split
  · rfl
  · rfl

theorem sane_retire (h : Sane r) : Sane (r.retire id ref) := by
  refine ⟨?_, ?_, ?_⟩
  · intro i q hlook
    rw [heap_retire]
    exact h.mapped i q (lookup_retire id ref hlook)
  · intro i j q hi hj
    exact h.injective i j q (lookup_retire id ref hi) (lookup_retire id ref hj)
  · intro q
    rw [heap_retire, allocated_retire]
    exact h.stored q

theorem frames_retire (own : Option Nat) : Frames r (r.retire id ref) own := by
  refine ⟨?_, ?_, ?_⟩
  · intro q c hc _
    exact ⟨c, by rw [heap_retire, hc], rfl, rfl⟩
  · intro q c hloose hc _
    exact ⟨by rw [heap_retire, hc], fun i hlook => hloose i (lookup_retire id ref hlook)⟩
  · intro q c hc
    exact ⟨c, by rw [heap_retire, hc], rfl⟩

end Retire

end Reassembler

end ShmIpc.Stream.Go
