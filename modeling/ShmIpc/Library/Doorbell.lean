import ShmIpc.Library.Transition

/-!
Sleeping until somebody rings. A waiter announces that it is going to sleep, looks once
more for what it waits for, and sleeps if it is not there. Whoever makes it ready looks for
the announcement afterwards, and rings the bell if there is one. The bell keeps a ring
until a sleeper takes it. The announcement comes before the waiter's look and the product
before the ringer's, so one of the two looks succeeds.
-/

namespace ShmIpc.Library

universe u v w

variable {ι : Type u} {σ : Type v} {α : Type w}

/-- A waiter and its ringers. The waiter has `announced` its sleep, and has `cleared` the
last look before it. A ringer that made the product ready `owes` a look, and then the ring
that the look tells it to make. -/
structure Doorbell (ι : Type u) where
  announced : Prop
  cleared : Prop
  flag : Prop
  bell : Prop
  ready : Prop
  owes : ι → Prop
  announced_of_cleared : cleared → announced

namespace Doorbell

/-- A waiter that is ready to sleep does not miss what became ready. -/
structure Sound (d : Doorbell ι) : Prop where
  flagged : d.announced → d.flag
  covered : d.cleared → d.ready → d.bell ∨ ∃ t, d.owes t

/-- What the two programs promise of a step: the flag is up while the waiter is announced,
the waiter clears only a look that finds nothing, whoever makes it ready owes a look, the
sleeper's ring is not taken away, and a look that finds the flag leads to a ring. -/
structure Follows (d d' : Doorbell ι) : Prop where
  announce : d'.announced → d'.flag ∨ d.announced ∧ (d.flag → d'.flag)
  clear : d'.cleared → d'.ready → d.cleared
  publish : d'.cleared → d'.ready → ¬ d.ready → ∃ t, d'.owes t
  keep : d'.cleared → d.bell → d'.bell
  errand : d'.cleared → d.flag → ∀ t, d.owes t → d'.owes t ∨ d'.bell

theorem Sound.of_awake {d : Doorbell ι} (h : ¬ d.announced) : Sound d :=
  ⟨fun ha => absurd ha h, fun hc => absurd (d.announced_of_cleared hc) h⟩

/-- Whoever still has to ring a sleeper will find its announcement. -/
theorem Sound.rung {d : Doorbell ι} (h : Sound d) (hcleared : d.cleared) (hready : d.ready) :
    d.bell ∨ d.flag ∧ ∃ t, d.owes t := by
  have hflag := h.flagged (d.announced_of_cleared hcleared)
  cases h.covered hcleared hready with
  | inl hbell => exact Or.inl hbell
  | inr howes => exact Or.inr ⟨hflag, howes⟩

/-- A waiter that looks again does not have to be covered. -/
theorem Follows.of_uncleared {d d' : Doorbell ι} (h : ¬ d'.cleared)
    (hannounce : d'.announced → d'.flag ∨ d.announced ∧ (d.flag → d'.flag)) : Follows d d' :=
  ⟨hannounce, fun hc => absurd hc h, fun hc => absurd hc h, fun hc => absurd hc h,
    fun hc => absurd hc h⟩

theorem Follows.of_awake {d d' : Doorbell ι} (h : ¬ d'.announced) : Follows d d' :=
  .of_uncleared (fun hc => h (d'.announced_of_cleared hc)) fun ha => absurd ha h

/-- A waiter that stays as it is, beside a step of somebody else. -/
theorem Follows.of_steady {d d' : Doorbell ι} (hannounced : d'.announced → d.announced)
    (hcleared : d'.cleared → d.cleared) (hflag : d.flag → d'.flag) (hbell : d.bell → d'.bell)
    (hready : d'.ready → ¬ d.ready → ∃ t, d'.owes t)
    (howes : d.flag → ∀ t, d.owes t → d'.owes t ∨ d'.bell) : Follows d d' :=
  ⟨fun ha => Or.inr ⟨hannounced ha, hflag⟩, fun hc _ => hcleared hc, fun _ => hready,
    fun _ => hbell, fun _ => howes⟩

/-- The part of one ringer: the others owe what they owed. -/
theorem Follows.of_ringer {d d' : Doorbell ι} (t : ι)
    (hannounced : d'.announced → d.announced) (hcleared : d'.cleared → d.cleared)
    (hothers : ∀ u, u ≠ t → d.owes u → d'.owes u) (hflag : d.flag → d'.flag)
    (hbell : d.bell → d'.bell) (hready : d'.ready → ¬ d.ready → d'.owes t)
    (howes : d.flag → d.owes t → d'.owes t ∨ d'.bell) : Follows d d' := by
  refine .of_steady hannounced hcleared hflag hbell (fun hr hn => ⟨t, hready hr hn⟩) ?_
  intro hup u hu
  by_cases hut : u = t
  · subst hut
    exact howes hup hu
  · exact Or.inl (hothers u hut hu)

theorem Sound.step {d d' : Doorbell ι} (h : Sound d) (hstep : Follows d d') : Sound d' := by
  refine ⟨?_, ?_⟩
  · intro hannounced
    cases hstep.announce hannounced with
    | inl hflag => exact hflag
    | inr hold => exact hold.2 (h.flagged hold.1)
  · intro hcleared hready
    have hold := hstep.clear hcleared hready
    have hflag := h.flagged (d.announced_of_cleared hold)
    by_cases hwas : d.ready
    · cases h.covered hold hwas with
      | inl hbell => exact Or.inl (hstep.keep hcleared hbell)
      | inr howes =>
        obtain ⟨t, ht⟩ := howes
        cases hstep.errand hcleared hflag t ht with
        | inl hstill => exact Or.inr ⟨t, hstill⟩
        | inr hrung => exact Or.inl hrung
    · exact Or.inr (hstep.publish hcleared hready hwas)

/-- A system in which a doorbell is seen, with steps that keep to the two programs. -/
theorem sound_of_reachable {step : σ → α → Option σ} {guard : σ → α → Prop} {start s : σ}
    (view : σ → Doorbell ι) (P : σ → Prop) (hP : ∀ s, Reachable step guard start s → P s)
    (hstart : Sound (view start))
    (hstep : ∀ s a s', P s → guard s a → step s a = some s' → Follows (view s) (view s'))
    (hs : Reachable step guard start s) : Sound (view s) := by
  induction hs with
  | start => exact hstart
  | step s s' a hreach hguard ha ih => exact ih.step (hstep s a s' (hP s hreach) hguard ha)

end Doorbell

end ShmIpc.Library
