import ShmIpc.Slots.GuestWaiter

/-!
No doorbell is lost. The host thread goes over the slots twice before it parks, once to
announce that it is waiting and once to look for requests. A slot the second pass has
found without a request carries the announcement, so a request published on it later is
followed by a load that reads the announcement, and by a signal. The signal stays until
the parked thread takes it, whatever other signals it coalesces with.
-/

namespace ShmIpc.Slots
open Library

/-- The announcement on slot `i` is made and not yet withdrawn. -/
def WaiterPc.Announced (i : Nat) : WaiterPc → Prop
  | .setWaiting j => i < j
  | .recheck _ | .parked => True
  | _ => False

/-- The second pass has found slot `i` without a request. -/
def WaiterPc.Cleared (i : Nat) : WaiterPc → Prop
  | .recheck j => i < j
  | .parked => True
  | _ => False

theorem WaiterPc.Cleared.announced {i : Nat} {pc : WaiterPc} (h : pc.Cleared i) :
    pc.Announced i := by
  cases pc with
  | recheck | parked => trivial
  | loop | waitForRequest | spinning | spinCheck | setWaiting | setActive | sleptCheck | lastCheck
  | processGuestCalls | processing | claiming | handling | publishing | stopped => cases h

namespace BellSystem

variable {Tid : Type}

/-- The sender whose request slot `i` holds has yet to load the host state, or to signal
what it loaded. -/
def Undecided (s : BellSystem Tid) (i : Nat) : Prop :=
  ∃ t, s.owner i = some t ∧ (s.sender t = .loadHostState i ∨ s.sender t = .signalling i)

structure Inv (cfg : BellConfig) (s : BellSystem Tid) : Prop where
  announced : ∀ i, i < cfg.numGuestSlots → s.waiter.Announced i → (s.slots i).hostState = .waiting
  covered : ∀ i, i < cfg.numGuestSlots → s.waiter.Cleared i → (s.slots i).state = .reqReady →
    s.event = true ∨ s.Undecided i

section Slots

variable {cfg : BellConfig} {s s' : BellSystem Tid}

theorem inv_awake (h : ∀ i, i < cfg.numGuestSlots → ¬ s.waiter.Announced i) : Inv cfg s :=
  ⟨fun i hi ha => absurd ha (h i hi), fun i hi hc => absurd hc.announced (h i hi)⟩

theorem inv_setWaiting (h : Inv cfg s) (i : Nat) (hpc : s.waiter = .setWaiting i) :
    Inv cfg ((s.setHostState i .waiting).goto (.setWaiting (i + 1))) := by
  refine ⟨?_, fun j hj hc => False.elim hc⟩
  intro j hj hannounced
  have hle : j < i + 1 := hannounced
  simp only [goto, setHostState, Function.update_apply]
  split
  · rfl
  · exact h.announced j hj (by rw [hpc]; change j < i; omega)

theorem inv_recheck (h : Inv cfg s) (i : Nat) (hpc : s.waiter = .recheck i) :
    Inv cfg (s.goto (s.anyRequestReady cfg i (.setActive 0) (.recheck (i + 1)) .parked)) := by
  have hannounced : ∀ j, j < cfg.numGuestSlots → (s.slots j).hostState = .waiting :=
    fun j hj => h.announced j hj (by rw [hpc]; trivial)
  simp only [anyRequestReady]
  split
  · split
    · exact inv_awake fun j _ ha => ha
    · next hstate =>
        refine ⟨fun j hj _ => hannounced j hj, ?_⟩
        intro j hj hcleared hready
        have hle : j < i + 1 := hcleared
        by_cases hji : j = i
        · exact absurd (hji ▸ hready) hstate
        · exact h.covered j hj (by rw [hpc]; change j < i; omega) hready
  · next hlast =>
      refine ⟨fun j hj _ => hannounced j hj, fun j hj _ hready => ?_⟩
      exact h.covered j hj (by rw [hpc]; change j < i; omega) hready

theorem awake_of_waiterStep (hstep : s.waiterStep cfg = some s')
    (hset : ∀ i, s.waiter ≠ .setWaiting i) (hrecheck : ∀ i, s.waiter ≠ .recheck i) (j : Nat) :
    ¬ s'.waiter.Announced j := by
  intro hannounced
  cases hpc : s.waiter with
  | setWaiting i => exact hset i hpc
  | recheck i => exact hrecheck i hpc
  | loop | waitForRequest | spinning | spinCheck | parked | setActive | sleptCheck | lastCheck
  | processGuestCalls | processing | claiming | handling | publishing | stopped =>
    simp only [waiterStep, waitForRequest, anyRequestReady, hpc] at hstep
    repeat' split at hstep
    all_goals cases hstep
    all_goals simp only [goto] at hannounced
    all_goals first
      | exact hannounced
      | exact Nat.not_lt_zero j hannounced

theorem inv_waiterStep (h : Inv cfg s) (hstep : s.waiterStep cfg = some s') : Inv cfg s' := by
  cases hpc : s.waiter with
  | setWaiting i =>
    simp only [waiterStep, hpc] at hstep
    split at hstep
    · cases hstep
      exact inv_setWaiting h i hpc
    · next hlast =>
        cases hstep
        refine ⟨fun j hj _ => h.announced j hj (by rw [hpc]; change j < i; omega), ?_⟩
        exact fun j _ hc => absurd hc (Nat.not_lt_zero j)
  | recheck i =>
    simp only [waiterStep, hpc, Option.some.injEq] at hstep
    subst hstep
    exact inv_recheck h i hpc
  | loop | waitForRequest | spinning | spinCheck | parked | setActive | sleptCheck | lastCheck
  | processGuestCalls | processing | claiming | handling | publishing | stopped =>
    refine inv_awake fun j _ => awake_of_waiterStep hstep ?_ ?_ j
    · intro i heq
      rw [hpc] at heq
      cases heq
    · intro i heq
      rw [hpc] at heq
      cases heq

theorem inv_elsewhere (h : Inv cfg s) (i : Nat) (state : SlotState) (hne : state ≠ .reqReady) :
    Inv cfg (s.setState i state) := by
  refine ⟨?_, ?_⟩
  · intro j hj hannounced
    have hold := h.announced j hj hannounced
    simp only [setState, Function.update_apply]
    split
    · next hji => rw [← hji]; exact hold
    · exact hold
  · intro j hj hcleared hready
    simp only [setState, Function.update_apply] at hready
    split at hready
    · exact absurd hready hne
    · exact h.covered j hj hcleared hready

end Slots

section Senders

variable [DecidableEq Tid] {cfg : BellConfig} {s s' : BellSystem Tid}

theorem undecided_moveSender {t : Tid} {i : Nat} (pc : SenderPc) (h : s.Undecided i)
    (hkept : s.owner i = some t → pc = .loadHostState i ∨ pc = .signalling i) :
    (s.moveSender t pc).Undecided i := by
  obtain ⟨u, howner, hpc⟩ := h
  refine ⟨u, howner, ?_⟩
  simp only [moveSender, Function.update_apply]
  split
  · next hut => exact hkept (hut ▸ howner)
  · exact hpc

theorem inv_publish (h : Inv cfg s) (t : Tid) (i : Nat) (hpc : s.sender t = .publishing i) :
    Inv cfg { (s.setState i .reqReady).moveSender t (.loadHostState i) with
      owner := Function.update s.owner i (some t) } := by
  refine ⟨?_, ?_⟩
  · intro j hj hannounced
    have hold := h.announced j hj hannounced
    simp only [moveSender, setState, Function.update_apply]
    split
    · next hji => rw [← hji]; exact hold
    · exact hold
  · intro j hj hcleared hready
    by_cases hji : j = i
    · right
      subst hji
      exact ⟨t, Function.update_self _ _ _, Or.inl (Function.update_self _ _ _)⟩
    · simp only [moveSender, setState, Function.update_of_ne hji] at hready
      cases h.covered j hj hcleared hready with
      | inl hevent => exact Or.inl hevent
      | inr hundecided =>
        obtain ⟨u, howner, hsender⟩ := hundecided
        have hut : u ≠ t := by
          rintro rfl
          rw [hpc] at hsender
          cases hsender with
          | inl heq => cases heq
          | inr heq => cases heq
        refine Or.inr ⟨u, (Function.update_of_ne hji _ _).trans howner, ?_⟩
        change Function.update s.sender t _ u = _ ∨ Function.update s.sender t _ u = _
        rw [Function.update_of_ne hut]
        exact hsender

theorem inv_moveSender (h : Inv cfg s) (t : Tid) (pc : SenderPc)
    (hkept : ∀ i, i < cfg.numGuestSlots → s.waiter.Cleared i →
      s.sender t = .loadHostState i ∨ s.sender t = .signalling i →
      pc = .loadHostState i ∨ pc = .signalling i) :
    Inv cfg (s.moveSender t pc) := by
  refine ⟨h.announced, ?_⟩
  intro i hi hcleared hready
  cases h.covered i hi hcleared hready with
  | inl hevent => exact Or.inl hevent
  | inr hundecided =>
    refine Or.inr (undecided_moveSender pc hundecided ?_)
    intro howner
    obtain ⟨u, hu, hsender⟩ := hundecided
    rw [Option.some.inj (hu.symm.trans howner)] at hsender
    exact hkept i hi hcleared hsender

theorem inv_loadHostState (h : Inv cfg s) (t : Tid) (i : Nat)
    (hpc : s.sender t = .loadHostState i) :
    Inv cfg (s.moveSender t
      (if (s.slots i).hostState = .waiting then .signalling i else .idle)) := by
  apply inv_moveSender h
  intro j hj hcleared hsender
  have hji : j = i := by
    rw [hpc] at hsender
    cases hsender with
    | inl heq => cases heq; rfl
    | inr heq => cases heq
  subst hji
  rw [if_pos (h.announced j hj hcleared.announced)]
  exact Or.inr rfl

theorem inv_senderStep (h : Inv cfg s) (t : Tid) (hstep : s.senderStep t = some s') :
    Inv cfg s' := by
  cases hpc : s.sender t with
  | idle =>
    simp only [senderStep, hpc] at hstep
    cases hstep
  | publishing i =>
    simp only [senderStep, hpc, Option.some.injEq] at hstep
    subst hstep
    exact inv_publish h t i hpc
  | loadHostState i =>
    simp only [senderStep, hpc, Option.some.injEq] at hstep
    subst hstep
    exact inv_loadHostState h t i hpc
  | signalling i =>
    simp only [senderStep, hpc, Option.some.injEq] at hstep
    subst hstep
    exact ⟨h.announced, fun _ _ _ _ => Or.inl rfl⟩

theorem inv_take (h : Inv cfg s) (t : Tid) (i : Nat) (hpc : s.sender t = .idle) :
    Inv cfg (s.moveSender t (.publishing i)) := by
  apply inv_moveSender h
  intro j _ _ hsender
  rw [hpc] at hsender
  cases hsender with
  | inl heq => cases heq
  | inr heq => cases heq

theorem inv_step (h : Inv cfg s) (a : BellAction Tid) (hstep : s.step cfg a = some s') :
    Inv cfg s' := by
  cases a with
  | waiter => exact inv_waiterStep h hstep
  | timeout =>
    simp only [step] at hstep
    split at hstep
    · cases hstep
      exact inv_awake fun _ _ ha => ha
    · cases hstep
  | take t i =>
    simp only [step] at hstep
    split at hstep
    · next hidle =>
        cases hstep
        exact inv_take h t i hidle
    · cases hstep
  | sender t => exact inv_senderStep h t hstep
  | elsewhere i state =>
    simp only [step] at hstep
    split at hstep
    · cases hstep
    · next hne =>
        cases hstep
        exact inv_elsewhere h i state hne
  | wakeWaiter =>
    cases hstep
    exact ⟨h.announced, fun _ _ _ _ => Or.inl rfl⟩
  | stop | shutdown =>
    cases hstep
    exact ⟨h.announced, h.covered⟩

theorem inv_reachable {guard : BellSystem Tid → BellAction Tid → Prop}
    (hs : Reachable (step cfg) guard (start Tid) s) : Inv cfg s := by
  induction hs with
  | start => exact inv_awake fun _ _ ha => ha
  | step s s' a _ _ hstep ih => exact inv_step ih a hstep

/-- The host thread is parked on the event, nobody has signalled it, and a slot holds a
request whose sender is done with the doorbell. -/
def LostDoorbell (cfg : BellConfig) (s : BellSystem Tid) : Prop :=
  s.waiter = .parked ∧ s.event = false ∧
    ∃ i, i < cfg.numGuestSlots ∧ (s.slots i).state = .reqReady ∧ ¬ s.Undecided i

/-- Whatever the number of slots, the batch limit and the interleaving, no doorbell is
lost. -/
theorem no_lost_doorbell (cfg : BellConfig) (s : BellSystem Tid)
    (hs : Reachable (step cfg) (fun _ _ => True) (start Tid) s) : ¬ LostDoorbell cfg s := by
  rintro ⟨hparked, hevent, i, hi, hready, hdecided⟩
  have hcleared : s.waiter.Cleared i := by rw [hparked]; trivial
  cases (inv_reachable hs).covered i hi hcleared hready with
  | inl hsignalled => rw [hevent] at hsignalled; cases hsignalled
  | inr hundecided => exact hdecided hundecided

end Senders

def parkedRun : List (BellAction Bool) :=
  [.waiter, .waiter, .waiter, .waiter, .waiter, .waiter, .waiter, .take true 1, .waiter,
    .sender true]

theorem no_lost_doorbell_parked :
    ∃ s : BellSystem Bool,
      Reachable (step ⟨2, true, false, 1⟩) (fun _ _ => True) (start Bool) s ∧
        (s.waiter = .parked ∧ s.event = false ∧ (s.slots 1).state = .reqReady) ∧
        ¬ LostDoorbell ⟨2, true, false, 1⟩ s := by
  obtain ⟨s, hreach, htest⟩ := exists_reachable_of_run (step ⟨2, true, false, 1⟩) (start Bool)
    parkedRun
    (fun s => decide (s.waiter = .parked ∧ s.event = false ∧ (s.slots 1).state = .reqReady))
    (by decide)
  exact ⟨s, hreach, of_decide_eq_true htest, no_lost_doorbell _ s hreach⟩

end BellSystem

end ShmIpc.Slots
