import Mathlib.Algebra.Order.Ring.Int

/-!
Two runs of one machine, the second fed only some of the events of the first. If a
relation between their states survives the events both take and the events only the first
takes, and if the outputs of interest agree event by event, then those outputs agree for
the runs.
-/

namespace ShmIpc.Library

variable {σ ε ω : Type*}

/-- Events are fed to a machine one at a time and its outputs are collected. -/
def feed (step : σ → ε → σ × List ω) (s : σ) : List ε → σ × List ω
  | [] => (s, [])
  | e :: events =>
    ((feed step (step s e).1 events).1, (step s e).2 ++ (feed step (step s e).1 events).2)

/-- Every event of the run is `good` in the state that it finds. -/
def Along (step : σ → ε → σ × List ω) (good : σ → ε → Prop) (s : σ) : List ε → Prop
  | [] => True
  | e :: events => good s e ∧ Along step good (step s e).1 events

/-- What carries the comparison: `keep` tells the events the second run is fed, `shows`
the outputs that are compared. -/
structure Unwinding (step : σ → ε → σ × List ω) (good : σ → ε → Prop) (keep : ε → Bool)
    (shows : ω → Bool) (R : σ → σ → Prop) : Prop where
  kept : ∀ s s' e, R s s' → good s e → keep e = true →
    R (step s e).1 (step s' e).1 ∧ (step s e).2.filter shows = (step s' e).2
  skipped : ∀ s s' e, R s s' → good s e → keep e = false →
    R (step s e).1 s' ∧ (step s e).2.filter shows = []

theorem Unwinding.feed_eq {step : σ → ε → σ × List ω} {good : σ → ε → Prop} {keep : ε → Bool}
    {shows : ω → Bool} {R : σ → σ → Prop} (h : Unwinding step good keep shows R)
    (events : List ε) (s s' : σ) (hs : R s s') (hgood : Along step good s events) :
    (feed step s events).2.filter shows = (feed step s' (events.filter keep)).2 := by
  induction events generalizing s s' with
  | nil => rfl
  | cons e events ih =>
    cases hkeep : keep e with
    | true =>
      obtain ⟨hnext, hout⟩ := h.kept s s' e hs hgood.1 hkeep
      have hrest := ih _ _ hnext hgood.2
      simp only [feed, List.filter_cons_of_pos hkeep, List.filter_append, hout, hrest]
    | false =>
      obtain ⟨hnext, hout⟩ := h.skipped s s' e hs hgood.1 hkeep
      have hrest := ih _ _ hnext hgood.2
      rw [List.filter_cons_of_neg (by rw [hkeep]; simp)]
      simp only [feed, List.filter_append, hout, List.nil_append, hrest]

end ShmIpc.Library
