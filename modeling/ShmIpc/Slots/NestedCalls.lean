import Mathlib.Data.Fintype.Card
import Mathlib.Data.Fintype.Prod
import ShmIpc.Library.Family
import ShmIpc.Slots.Recoverable

/-!
How many host slots nested calls need. A handler that is called back may call again while
the outer call still holds its slot, so a thread holds one slot for each level of nesting.
With the documented `N_threads * (Depth + 1)` host slots a level that looks for a slot finds
one that nobody else is at, and such a slot can be claimed: no level waits for another one.
-/

namespace ShmIpc.Slots

open Library

abbrev Level (threads depth : Nat) := Fin threads × Fin (depth + 1)

abbrev HostPool (numHostSlots threads depth : Nat) :=
  Fin numHostSlots → HostSystem (Level threads depth)

namespace HostPool

variable {numHostSlots threads depth : Nat} {layout : Layout}
  {s s' : HostPool numHostSlots threads depth}

/-- A level goes to a slot only when it is done with the others. -/
def OneSlotEach (s : HostPool numHostSlots threads depth) :
    Fin numHostSlots × HostAction (Level threads depth) → Prop
  | (i, .host x _) => ∀ j, j ≠ i → (s j).host x = .idle
  | (_, .worker _) => True

/-- No level is at two slots. -/
def Spread (s : HostPool numHostSlots threads depth) : Prop :=
  ∀ x i j, (s i).host x ≠ .idle → (s j).host x ≠ .idle → i = j

theorem host_of_step {Tid : Type} [DecidableEq Tid] {s s' : HostSystem Tid} {a : HostAction Tid}
    {x : Tid} (h : s.step layout a = some s') (hx : ∀ move, a ≠ .host x move) :
    s'.host x = s.host x := by
  cases a with
  | worker move =>
    obtain ⟨slot, pc, -, rfl⟩ := HostSystem.step_worker h
    rfl
  | host y move =>
    obtain ⟨slot, pc, -, rfl⟩ := HostSystem.step_host h
    exact Function.update_of_ne (by rintro rfl; exact hx move rfl) _ _

theorem spread_step {a : Fin numHostSlots × HostAction (Level threads depth)}
    (h : s.Spread) (hguard : OneSlotEach s a)
    (hstep : family (HostSystem.step layout) s a = some s') : s'.Spread := by
  obtain ⟨i, a⟩ := a
  obtain ⟨c, hc, rfl⟩ := Option.map_eq_some_iff.mp hstep
  intro x j k hj hk
  by_cases hx : ∀ move, a ≠ .host x move
  · have hsame : ∀ k, (Function.update s i c k).host x = (s k).host x := by
      intro k
      by_cases hki : k = i
      · subst hki
        rw [Function.update_self]
        exact host_of_step hc hx
      · rw [Function.update_of_ne hki]
    rw [hsame] at hj hk
    exact h x j k hj hk
  · push Not at hx
    obtain ⟨move, rfl⟩ := hx
    have hmover : ∀ k, (Function.update s i c k).host x ≠ .idle → k = i := by
      intro k hne
      by_contra hki
      rw [Function.update_of_ne hki] at hne
      exact hne (hguard k hki)
    rw [hmover j hj, hmover k hk]

/-- A level that is nowhere leaves a slot that nobody is at: there are more slots than
other levels, and each of these is at one slot at most. -/
theorem Spread.exists_deserted (h : s.Spread) (hslots : threads * (depth + 1) ≤ numHostSlots)
    (x : Level threads depth) (hidle : ∀ i, (s i).host x = .idle) : ∃ i, (s i).Deserted := by
  by_contra hnone
  simp only [HostSystem.Deserted, not_exists, not_forall] at hnone
  choose occupant hoccupant using hnone
  have hinjective : Function.Injective occupant :=
    fun i j hij => h (occupant i) i j (hoccupant i) (hij ▸ hoccupant j)
  have hmissed : x ∉ Set.range occupant := by
    rintro ⟨i, rfl⟩
    exact hoccupant i (hidle i)
  have hcard := Fintype.card_lt_of_injective_of_notMem occupant hinjective hmissed
  rw [Fintype.card_fin, Fintype.card_prod, Fintype.card_fin, Fintype.card_fin] at hcard
  omega

/-- With the documented number of host slots a level that looks for one finds one that nobody
is at, and can have it. The worker of that slot moves first only if it has locked it for an
answer. -/
theorem nested_call_finds_slot {start : HostPool numHostSlots threads depth}
    (hslots : threads * (depth + 1) ≤ numHostSlots) (hstart : ∀ i, (start i).Initial)
    (hs : Reachable (family (HostSystem.step layout)) OneSlotEach start s)
    (x : Level threads depth) (hidle : ∀ i, (s i).host x = .idle) :
    ∃ i k n s', (s i).Deserted ∧ ((s i).slot.state ≠ .done → k = 0) ∧
      exec (family (HostSystem.step layout)) s ((claimAfter x k n).map (i, ·)) = some s' ∧
      (s' i).host x = .owned ∧ (s' i).slot.state = .busy := by
  have hspread : s.Spread := by
    refine hs.invariant Spread ?_ fun _ _ _ h hguard hstep => spread_step h hguard hstep
    intro y i _ hi
    exact absurd ((hstart i).idle y) hi
  obtain ⟨i, hdeserted⟩ := hspread.exists_deserted hslots x hidle
  have haccounted := HostSystem.accounted_of_reachable (hstart i) (hs.component i)
  obtain ⟨k, n, c, hnone, hrun, howned, hbusy⟩ := haccounted.claimed hdeserted x
  exact ⟨i, k, n, _, hdeserted, hnone, exec_family i _ hrun, by simpa using ⟨howned, hbusy⟩⟩

instance (s : HostPool numHostSlots threads depth) : DecidablePred (OneSlotEach s)
  | (i, .host x _) => inferInstanceAs (Decidable (∀ j, j ≠ i → (s j).host x = .idle))
  | (_, .worker _) => inferInstanceAs (Decidable True)

/-- One thread, two slots: the inner call finds the slot that the outer one does not hold. -/
theorem nested_call_finds_slot_of_two :
    ∃ s : HostPool 2 1 1, (s 0).host (0, 0) = .owned ∧
      ∃ i k n s', (s i).Deserted ∧ ((s i).slot.state ≠ .done → k = 0) ∧
        exec (family (HostSystem.step ⟨true, 2⟩)) s
          ((claimAfter ((0, 1) : Level 1 1) k n).map (i, ·)) = some s' ∧
        (s' i).host (0, 1) = .owned ∧ (s' i).slot.state = .busy := by
  obtain ⟨s, hs, htest⟩ := exists_reachable_of_exec (family (HostSystem.step ⟨true, 2⟩))
    (OneSlotEach : HostPool 2 1 1 → _ → Prop) (fun _ => smallStart (Level 1 1))
    (fun s a => decide (OneSlotEach s a)) (fun _ _ h => of_decide_eq_true h)
    ((claimRun ((0, 0) : Level 1 1)).map ((0 : Fin 2), ·))
    (fun s => (s 0).host (0, 0) = .owned ∧ ∀ i, (s i).host (0, 1) = .idle) (by decide +kernel)
  obtain ⟨houter, hinner⟩ := of_decide_eq_true htest
  exact ⟨s, houter,
    nested_call_finds_slot (by decide) (fun _ => smallStart_initial _) hs (0, 1) hinner⟩

end HostPool

end ShmIpc.Slots
