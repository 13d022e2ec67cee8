import Mathlib.Algebra.Order.Ring.Int

/-!
A caller that forks workers and joins them. A counter, be it a semaphore or a wait group,
stands for the workers that have some property and for what the caller put in on its own.
A mailbox takes the first error it is offered and drops those that come while it is full;
the caller takes one error out of it, or fails on its own, and reports what it has.
-/

namespace ShmIpc.Library

universe u v

section Counts

variable {ω : Type u} {p : ω → Bool} {workers : List ω} {own n i : Nat} {w w' : ω}

/-- `n` counts the workers with property `p`, and `own` times the caller. -/
def Counts (p : ω → Bool) (workers : List ω) (own n : Nat) : Prop :=
  n = workers.countP p + own

theorem counts_nil (p : ω → Bool) : Counts p [] 0 0 := rfl

theorem Counts.put (h : Counts p workers own n) : Counts p workers (own + 1) (n + 1) :=
  congrArg (· + 1) h

theorem Counts.take (h : Counts p workers (own + 1) n) : Counts p workers own (n - 1) := by
  rw [Counts] at h ⊢
  omega

/-- What the caller put in passes to the worker it forks. -/
theorem Counts.fork (h : Counts p workers 1 n) (hw : p w = true) :
    Counts p (workers ++ [w]) 0 n := by
  rw [Counts, List.countP_append, List.countP_singleton, if_pos hw]
  exact h

theorem Counts.keep (h : Counts p workers own n) (hi : workers[i]? = some w) (hp : p w' = p w) :
    Counts p (workers.set i w') own n := by
  obtain ⟨hlt, rfl⟩ := List.getElem?_eq_some_iff.mp hi
  have hpos := List.boole_getElem_le_countP (p := p) hlt
  rw [Counts, List.countP_set hlt, hp]
  rw [Counts] at h
  omega

theorem Counts.leave (h : Counts p workers own n) (hi : workers[i]? = some w)
    (hw : p w = true) (hw' : p w' = false) : Counts p (workers.set i w') own (n - 1) := by
  obtain ⟨hlt, rfl⟩ := List.getElem?_eq_some_iff.mp hi
  have hpos := List.boole_getElem_le_countP (p := p) hlt
  rw [if_pos hw] at hpos
  rw [Counts, List.countP_set hlt, hw', if_pos hw, if_neg Bool.false_ne_true]
  rw [Counts] at h
  omega

theorem Counts.countP_le (h : Counts p workers own n) : workers.countP p ≤ n :=
  h ▸ Nat.le_add_right _ _

/-- A counter at zero counts nobody. -/
theorem Counts.none_of_zero (h : Counts p workers own 0) : ∀ w ∈ workers, p w = false := by
  have hzero : workers.countP p = 0 := Nat.le_zero.mp h.countP_le
  intro w hw
  exact Bool.eq_false_iff.mpr (List.countP_eq_zero.mp hzero w hw)

/-- A counter above what the caller put in counts somebody. -/
theorem Counts.exists_of_lt (h : Counts p workers own n) (hlt : own < n) :
    ∃ (i : Nat) (w : ω), workers[i]? = some w ∧ p w = true := by
  have hpos : 0 < workers.countP p := by
    rw [Counts] at h
    omega
  obtain ⟨w, hw, hp⟩ := List.countP_pos_iff.mp hpos
  obtain ⟨i, hi⟩ := List.mem_iff_getElem?.mp hw
  exact ⟨i, w, hi, hp⟩

/-- What the workers still cost, when one of them moves. -/
theorem sum_map_set (f : ω → Nat) (hi : workers[i]? = some w) (w' : ω) :
    ((workers.set i w').map f).sum + f w = (workers.map f).sum + f w' := by
  induction workers generalizing i with
  | nil => cases hi
  | cons v workers ih =>
    cases i with
    | zero =>
      rw [List.getElem?_cons_zero, Option.some.injEq] at hi
      rw [List.set_cons_zero, List.map_cons, List.map_cons, List.sum_cons, List.sum_cons, hi]
      omega
    | succ i =>
      rw [List.getElem?_cons_succ] at hi
      have hrest := ih hi
      rw [List.set_cons_succ, List.map_cons, List.map_cons, List.sum_cons, List.sum_cons]
      omega

end Counts

section Mailbox

variable {ε : Type v} {raised : List ε} {pending pending' : Prop} {mailbox read : Option ε} {e : ε}

/-- A send that drops its value when the mailbox is full. -/
def offer (mailbox : Option ε) (e : ε) : Option ε := some (mailbox.getD e)

/-- Where the errors raised so far are: in a worker's hands, in the mailbox, or read by
the caller, and nothing else is in the mailbox or was read. -/
structure Reported (raised : List ε) (pending : Prop) (mailbox read : Option ε) : Prop where
  mailbox_mem : ∀ e, mailbox = some e → e ∈ raised
  read_mem : ∀ e, read = some e → e ∈ raised
  heard : raised ≠ [] → pending ∨ mailbox ≠ none ∨ read ≠ none

theorem reported_nil (pending : Prop) : Reported ([] : List ε) pending none none where
  mailbox_mem := by
    intro e h
    cases h
  read_mem := by
    intro e h
    cases h
  heard h := absurd rfl h

theorem Reported.mono (h : Reported raised pending mailbox read) (hp : pending → pending') :
    Reported raised pending' mailbox read :=
  ⟨h.mailbox_mem, h.read_mem, fun hne => (h.heard hne).imp_left hp⟩

/-- A worker comes by an error. -/
theorem Reported.raise (h : Reported raised pending mailbox read) (e : ε) (hp : pending') :
    Reported (raised ++ [e]) pending' mailbox read :=
  ⟨fun e' he => List.mem_append_left _ (h.mailbox_mem e' he),
    fun e' he => List.mem_append_left _ (h.read_mem e' he), fun _ => Or.inl hp⟩

/-- A worker offers its error. -/
theorem Reported.offer (h : Reported raised pending mailbox read) (he : e ∈ raised)
    (pending' : Prop) : Reported raised pending' (offer mailbox e) read := by
  refine ⟨?_, h.read_mem, fun _ => Or.inr (Or.inl (Option.some_ne_none _))⟩
  intro e' he'
  cases mailbox with
  | none =>
    cases he'
    exact he
  | some first =>
    cases he'
    exact h.mailbox_mem first rfl

/-- The caller takes the error out of the mailbox. -/
theorem Reported.take (h : Reported raised pending (some e) none) :
    Reported raised pending none (some e) where
  mailbox_mem := by
    intro e' he'
    cases he'
  read_mem := h.mailbox_mem
  heard _ := Or.inr (Or.inr (Option.some_ne_none _))

/-- The caller fails on its own. -/
theorem Reported.fail (h : Reported raised pending mailbox none) (e : ε) :
    Reported (raised ++ [e]) pending mailbox (some e) where
  mailbox_mem e' he' := List.mem_append_left _ (h.mailbox_mem e' he')
  read_mem := by
    intro e' he'
    cases he'
    exact List.mem_append_right _ (List.mem_singleton_self e)
  heard _ := Or.inr (Or.inr (Option.some_ne_none _))

/-- Once no worker has an error in its hands, the caller that finds nothing has missed
nothing. -/
theorem Reported.eq_nil (h : Reported raised pending none none) (hp : ¬ pending) : raised = [] := by
  by_contra hne
  cases h.heard hne with
  | inl hpending => exact hp hpending
  | inr hsome =>
    cases hsome with
    | inl hmail => exact hmail rfl
    | inr hread => exact hread rfl

end Mailbox

end ShmIpc.Library
