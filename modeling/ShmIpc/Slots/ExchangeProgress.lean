import ShmIpc.Library.Halting
import ShmIpc.Slots.HostDoorbells

/-!
The doorbells alone carry an exchange to its end. Suppose that no event wait of either side
ever times out and no caller's patience ends, so that a sleeper is woken by a signal or not
at all, and that the threads use the slot one after the other. Then a thread that has
started to send comes back with the response, after a bounded number of steps of the two
programs in whatever order.

The state of the slot tells how far the exchange has come, and with it who moves next. The
price of a place is what both sides may still do from there.
-/

namespace ShmIpc.Slots

open Library

/-! ### The course of an exchange -/

/-- How far the caller has come: outside, with a slot of its own, with a published request,
with a response seen. -/
inductive AskingStage
  | out
  | holding
  | asked
  | answered

def AskerPc.stage : AskerPc → AskingStage
  | .away => .out
  | .owner | .setActive _ | .publish _ => .holding
  | .withdraw | .lastCheck | .finishWait => .answered
  | _ => .asked

/-- What the worker does with the slot. A worker that is about to leave is `gone`. -/
inductive ServiceStage
  | resting
  | claiming
  | serving
  | locked
  | gone

def AfterAnswer.stage (stage : ServiceStage) : AfterAnswer → ServiceStage
  | .exits => .gone
  | .loop | .restarts => stage

def BellWorkerPc.stage : BellWorkerPc → ServiceStage
  | .claim => .claiming
  | .handling | .recovering | .recoverCheck => .serving
  | .lock next => next.stage .serving
  | .publish next => next.stage .locked
  | .loadHostState next | .signal next => next.stage .resting
  | .exited => .gone
  | _ => .resting

inductive Exchange : AskingStage → SlotState → ServiceStage → Prop
  | out : Exchange .out .free .resting
  | holding : Exchange .holding .busy .resting
  | published : Exchange .asked .reqReady .resting
  | claiming : Exchange .asked .reqReady .claiming
  | serving : Exchange .asked .guestBusy .serving
  | locked : Exchange .asked .done .locked
  | responded : Exchange .asked .respReady .resting
  | answered : Exchange .answered .respReady .resting

section Programs

variable {line line' : BellLine} {pc pc' : AskerPc} {move : AskerMove}
  {wpc wpc' : BellWorkerPc} {wmove : BellWorkerMove}

theorem Exchange.asker {service : ServiceStage} (h : Exchange pc.stage line.state service)
    (hgo : AskerGoes line pc move line' pc') (hmove : move ≠ .deadline) :
    Exchange pc'.stage line'.state service := by
  generalize hstate : line.state = state at h
  cases hgo with
  | claim | finishWait => cases h; exact .holding
  | release => cases h; exact .out
  | publish => cases h; exact .published
  | guestActive w | signal w => cases w <;> exact hstate ▸ h
  | spinHit _ hready | recheckReady hready | loopReady hready =>
    rw [← hstate, hready] at h
    rw [hready]
    cases h
    exact .answered
  | timedOut hready => cases h; exact absurd hstate hready
  | deadline => exact absurd rfl hmove
  | _ => exact hstate ▸ h

theorem Exchange.worker {stage : AskingStage} (h : Exchange stage line.state wpc.stage)
    (hgo : BellWorkerGoes false line wpc wmove line' wpc') (hmove : wmove ≠ .shutdown) :
    Exchange stage line'.state wpc'.stage := by
  generalize hstate : line.state = state at h
  cases hgo with
  | spinHit _ hready | lastReady hready =>
    rw [← hstate, hready] at h
    rw [hready]
    cases h
    exact .claiming
  | claim => cases h; exact .serving
  | claimFails hready => cases h; exact absurd hstate hready
  | notOurs hours => cases h; exact absurd hstate hours
  | lock next hours =>
    cases next <;> cases h
    all_goals exact .locked
  | publish next hours =>
    cases next <;> cases h
    all_goals exact .responded
  | lockFails next hours | publishFails next hours =>
    cases next <;> cases h
    all_goals exact absurd hstate hours
  | hostActive next | signal next => cases next <;> exact hstate ▸ h
  | shutdown => exact absurd rfl hmove
  | closed hc | leaves hc | wokenClosing hc | recoverClosing hc => cases hc
  | _ => exact hstate ▸ h

/-! ### What is left to do -/

/-- What a caller may still do, and make the worker do. A response that is there shortens
the way. -/
def AskerPc.price (responded : Bool) : AskerPc → Nat
  | .away | .owner | .pending => 0
  | .finishWait => 1
  | .lastCheck => 2
  | .withdraw => 3
  | .parked => if responded then 5 else 0
  | .clock => if responded then 6 else 1
  | .loopCheck => if responded then 4 else 2
  | .recheck => if responded then 4 else 3
  | .announce => if responded then 5 else 4
  | .spinning i => if responded then 6 else 5 + (maxSpins - i)
  | .rearm => maxSpins + 7
  | .signal _ => 2 * maxSpins + 15
  | .loadGuestState _ => 2 * maxSpins + 16
  | .publish _ => 3 * maxSpins + 43
  | .setActive _ => 3 * maxSpins + 44

/-- What the worker may still do before it sleeps, with a request to take on the way. -/
def BellWorkerPc.price (requested : Bool) : BellWorkerPc → Nat
  | .exited => if requested then maxSpins + 21 else 0
  | .claim => if requested then maxSpins + 22 else maxSpins + 5
  | .lastCheck => if requested then maxSpins + 23 else maxSpins + 5
  | .withdraw => if requested then maxSpins + 24 else maxSpins + 6
  | .woken => if requested then maxSpins + 25 else maxSpins + 7
  | .parked => if requested then maxSpins + 26 else 0
  | .recheck => if requested then maxSpins + 25 else 1
  | .announce => if requested then maxSpins + 26 else 2
  | .spinning i => if requested then maxSpins + 27 else 3 + (maxSpins - i)
  | .loop => if requested then maxSpins + 28 else maxSpins + 4
  | .setActive => if requested then maxSpins + 29 else maxSpins + 5
  | .workerLoop => if requested then maxSpins + 30 else maxSpins + 6
  | .signal _ => if requested then maxSpins + 34 else maxSpins + 10
  | .loadHostState _ => if requested then maxSpins + 35 else maxSpins + 11
  | .publish _ => if requested then maxSpins + 36 else maxSpins + 17
  | .lock _ => if requested then maxSpins + 37 else maxSpins + 18
  | .recoverCheck => if requested then maxSpins + 38 else maxSpins + 19
  | .recovering => if requested then maxSpins + 39 else maxSpins + 20
  | .handling => if requested then maxSpins + 40 else maxSpins + 21

/-- A signal in the request event wakes the worker for a round, one in the response event
the caller for a look. -/
def exchangePrice (line : BellLine) (asking : AskerPc) (serving : BellWorkerPc) : Nat :=
  asking.price (line.state = .respReady) + serving.price (line.state = .reqReady) +
    (if line.reqEvent then maxSpins + 8 else 0) + (if line.respEvent then 3 else 0)

theorem BellWorkerPc.price_requested (pc : BellWorkerPc) :
    pc.price false ≤ pc.price true ∧ pc.price true ≤ pc.price false + maxSpins + 26 := by
  cases pc <;> simp only [BellWorkerPc.price, if_true, Bool.false_eq_true, if_false] <;> omega

theorem AskerPc.price_responded (pc : AskerPc) : pc.price true ≤ pc.price false + 5 := by
  cases pc <;> simp only [AskerPc.price, if_true, Bool.false_eq_true, if_false] <;> omega

theorem exchangePrice_asker (hgo : AskerGoes line pc move line' pc')
    (hmove : move = .run ∨ move = .sleep) (serving : BellWorkerPc) :
    exchangePrice line' pc' serving + 1 ≤ exchangePrice line pc serving := by
  have hprice := serving.price_requested
  unfold exchangePrice
  cases hgo with
  | claim | send | release | waitForSlot | deadline | expire => cases hmove <;> contradiction
  | publish | finishWait =>
    simp only [AskerPc.price, reduceCtorEq, decide_true, decide_false]
    cases hr : decide (line.state = .reqReady) <;> omega
  | guestActive w | signal w =>
    cases w <;> simp only [AskerPc.sent, AskerPc.price, if_true, Bool.false_eq_true, if_false]
    all_goals repeat' split
    all_goals omega
  | spinHit _ h | recheckReady h | loopReady h | lastReady h | spin _ h | recheck h | loopCheck h
  | timedOut h =>
    simp only [AskerPc.price, h, decide_true, decide_false, Bool.false_eq_true, if_true, if_false]
    omega
  | wake h =>
    simp only [AskerPc.price, h, if_true, Bool.false_eq_true, if_false]
    split <;> omega
  | _ =>
    simp only [AskerPc.price]
    repeat' split
    all_goals omega

theorem exchangePrice_worker (hgo : BellWorkerGoes false line wpc wmove line' wpc')
    (hmove : wmove ≠ .expire) (asking : AskerPc) :
    exchangePrice line' asking wpc' + 1 ≤ exchangePrice line asking wpc := by
  unfold exchangePrice
  cases hgo with
  | expire => exact absurd rfl hmove
  | closed h | leaves h | wokenClosing h | recoverClosing h => cases h
  | claim h | lock _ h | publish _ h =>
    have hjump := asking.price_responded
    simp only [BellWorkerPc.price, h, reduceCtorEq, decide_true, decide_false,
      Bool.false_eq_true, if_true, if_false]
    omega
  | lockFails next | publishFails next | hostActive next | signal next =>
    cases next <;> simp only [AfterAnswer.pc, BellWorkerPc.price, if_true]
    all_goals repeat' split
    all_goals omega
  | spinHit _ h | recheckReady h | lastReady h | spin _ h | recheck h | lastCheck h
  | claimFails h =>
    simp only [BellWorkerPc.price, h, decide_true, decide_false, Bool.false_eq_true, if_true,
      if_false]
    omega
  | wake h =>
    simp only [BellWorkerPc.price, h, if_true, Bool.false_eq_true, if_false]
    split <;> omega
  | _ =>
    simp only [BellWorkerPc.price]
    split <;> omega

theorem askerRun_isSome (h : pc ≠ .away ∧ pc ≠ .owner ∧ pc ≠ .pending)
    (hawake : pc = .parked → line.respEvent = true) : (askerRun line pc).isSome = true := by
  cases pc with
  | parked => simp [askerRun, hawake rfl]
  | spinning i =>
    simp only [askerRun]
    repeat' split
    all_goals rfl
  | away | owner | pending => simp at h
  | _ => rfl

theorem bellWorkerRun_isSome (closing : Bool) (hexited : wpc ≠ .exited)
    (hawake : wpc = .parked → line.reqEvent = true) :
    (bellWorkerRun closing line wpc).isSome = true := by
  cases wpc with
  | exited => exact absurd rfl hexited
  | parked => simp [bellWorkerRun, hawake rfl]
  | spinning | claim | lock | publish =>
    simp only [bellWorkerRun]
    repeat' split
    all_goals rfl
  | _ => rfl

end Programs

namespace HostBell

variable {Tid : Type} {s s' : HostBell Tid} {a : HostBellAction Tid} {t : Tid}

/-- No time limit passes, nobody reclaims the slot, and the worker is neither closed nor shut
down. -/
def calm : HostBellAction Tid → Bool
  | .asker _ .expire | .asker _ .deadline | .worker .expire | .worker .shutdown | .reclaim
  | .close => false
  | _ => true

/-- Besides, the threads use the slot one after the other. -/
def Undisturbed (s : HostBell Tid) (a : HostBellAction Tid) : Prop := OneAtATime s a ∧ calm a = true

/-- The state of the slot fits the only thread that may use it. -/
structure InStep (s : HostBell Tid) : Prop where
  opened : s.closing = false
  fits : ∀ t, (∀ u, u ≠ t → s.asker u = .away) →
    Exchange (s.asker t).stage s.line.state s.worker.stage

theorem InStep.used (h : s.InStep) (halone : s.Alone) (ht : s.asker t ≠ .away) :
    Exchange (s.asker t).stage s.line.state s.worker.stage :=
  h.fits t fun u hut => by_contra fun hu => hut (halone u t hu ht)

/-- The steps of the two programs, without new claims and sends. -/
def continues : HostBellAction Tid → Bool
  | .asker _ .run | .asker _ .sleep | .worker .run | .worker .sleep | .worker .panics => true
  | _ => false

/-- The call has returned: with the response, or at once if it was not to wait. -/
def returned (t : Tid) (s : HostBell Tid) : Bool :=
  s.asker t = .owner ∨ s.asker t = .pending

theorem undisturbed_of_continues (h : continues a = true) : Undisturbed s a := by
  unfold continues at h
  split at h
  all_goals first | exact ⟨trivial, rfl⟩ | cases h

theorem reqEvent_of_asleep (hstep : s.InStep) (halone : s.Alone) (hrequests : s.requests.Sound)
    (hresponses : (s.responses t).Sound) (hasker : s.asker t = .parked)
    (hevent : s.line.respEvent = false) (hworker : s.worker = .parked) :
    s.line.reqEvent = true := by
  have ht : s.asker t ≠ .away := by simp [hasker]
  have hexchange := hstep.used halone ht
  rw [hasker, hworker] at hexchange
  generalize hstate : s.line.state = state at hexchange
  cases hexchange with
  | published =>
    cases hrequests.rung hworker hstate with
    | inl hbell => exact hbell
    | inr howes =>
      obtain ⟨-, u, hu⟩ := howes
      obtain ⟨w, hw⟩ : (s.asker u).Owes := hu
      have hut : u = t := halone u t (by cases hw with | _ h => simp [h]) ht
      subst hut
      simp [hasker] at hw
  | responded =>
    cases hresponses.rung (Or.inr hasker) hstate with
    | inl hbell => exact absurd hbell (by simp [responses, responseBell, hevent])
    | inr howes =>
      obtain ⟨-, _, w, hw⟩ := howes
      simp [hworker] at hw

variable [DecidableEq Tid]

theorem inStep_step (h : s.InStep) (halone : s.Alone) (hguard : Undisturbed s a)
    (hstep : s.step a = some s') : s'.InStep := by
  cases goes_of_step hstep with
  | worker move line pc hgo =>
    rw [h.opened] at hgo
    exact ⟨h.opened, fun t haway => (h.fits t haway).worker hgo (by rintro rfl; cases hguard.2)⟩
  | reclaim | close => cases hguard.2
  | asker t move line pc hgo =>
    have haway := halone.others_away hguard.1 hgo
    have hafter := (h.fits t haway).asker hgo (by rintro rfl; cases hguard.2)
    refine ⟨h.opened, fun u hu => ?_⟩
    by_cases hut : u = t
    · subst hut
      simpa using hafter
    · have ht := hu t (Ne.symm hut)
      simp only [Function.update_self] at ht
      simpa [hut, haway u hut, ht] using hafter

theorem inStep_of_reachable (hs : Reachable step Undisturbed (start Tid) s) : s.InStep := by
  induction hs with
  | start => exact ⟨rfl, fun _ _ => .out⟩
  | step s s' a hreach hguard ha ih =>
    have halone := alone_of_reachable (hreach.mono fun _ _ => And.left)
    exact inStep_step ih halone hguard ha

theorem progress (hstep : s.InStep) (halone : s.Alone) (hrequests : s.requests.Sound)
    (hresponses : (s.responses t).Sound) (ht : s.asker t ≠ .away)
    (hreturned : returned t s = false) :
    ∃ a, continues a = true ∧ (s.step a).isSome = true := by
  simp only [returned, decide_eq_false_iff_not, not_or] at hreturned
  by_cases hasleep : s.asker t = .parked ∧ s.line.respEvent = false
  · refine ⟨.worker .run, rfl, ?_⟩
    rw [step, Option.isSome_map, bellWorkerMove]
    apply bellWorkerRun_isSome
    · intro hexited
      have hexchange := hstep.used halone ht
      rw [hexited, hasleep.1] at hexchange
      generalize s.line.state = state at hexchange
      cases hexchange
    · exact reqEvent_of_asleep hstep halone hrequests hresponses hasleep.1 hasleep.2
  · refine ⟨.asker t .run, rfl, ?_⟩
    rw [step, Option.isSome_map, askerMove]
    refine askerRun_isSome ⟨ht, hreturned.1, hreturned.2⟩ fun hparked => ?_
    by_contra hevent
    exact hasleep ⟨hparked, Bool.eq_false_iff.mpr hevent⟩

/-- Each step of the two programs brings the call nearer to its end, and none of them gives
it up. -/
theorem price_step (hstep : s.InStep) (halone : s.Alone) (ht : s.asker t ≠ .away)
    (ha : continues a = true) (h : s.step a = some s') :
    s'.asker t ≠ .away ∧ exchangePrice s'.line (s'.asker t) s'.worker + 1 ≤
      exchangePrice s.line (s.asker t) s.worker := by
  cases goes_of_step h with
  | worker move line pc hgo =>
    rw [hstep.opened] at hgo
    exact ⟨ht, exchangePrice_worker hgo (by rintro rfl; cases ha) _⟩
  | reclaim | close => cases ha
  | asker u move line pc hgo =>
    have hmove : move = .run ∨ move = .sleep := by cases move <;> simp_all [continues]
    have hut : t = u := by
      apply halone t u ht
      intro haway
      rw [haway] at hgo
      cases hgo
      simp at hmove
    subst hut
    simp only [Function.update_self]
    refine ⟨fun haway => ?_, exchangePrice_asker hgo hmove _⟩
    have hexchange := hstep.used halone ht
    generalize s.asker t = pc₀ at hgo hexchange
    generalize s.worker.stage = service at hexchange
    generalize hstate : s.line.state = state at hexchange
    cases hgo with
    | timedOut hready => cases hexchange; exact hready hstate
    | guestActive w | signal w => cases w <;> cases haway
    | release => simp at hmove
    | _ => cases haway

/-- A call comes back with its response although no wait is ever cut short, whatever state
the exchange was found in and however often the slot was used before. -/
theorem call_returns (hs : Reachable step Undisturbed (start Tid) s) (ht : s.asker t ≠ .away) :
    Halts (checked (fun _ => continues) step) continues (returned t) s := by
  apply Halts.of_measure
    (fun s => Reachable step Undisturbed (start Tid) s ∧ s.asker t ≠ .away)
    (fun s => exchangePrice s.line (s.asker t) s.worker) ⟨hs, ht⟩
  · rintro s a s' ⟨hreach, ht⟩ h
    obtain ⟨ha, hstep⟩ := Option.ite_none_right_eq_some.mp h
    have halone := alone_of_reachable (hreach.mono fun _ _ => And.left)
    obtain ⟨ht', hprice⟩ := price_step (inStep_of_reachable hreach) halone ht ha hstep
    exact ⟨⟨.step s s' a hreach (undisturbed_of_continues ha) hstep, ht'⟩, hprice⟩
  · rintro s ⟨hreach, ht⟩
    have hone := hreach.mono fun _ _ => And.left
    cases hreturned : returned t s with
    | true => exact Or.inl rfl
    | false =>
      obtain ⟨a, ha, hsome⟩ := progress (inStep_of_reachable hreach) (alone_of_reachable hone)
        (sound_requests hreach) (sound_responses hone t) ht hreturned
      refine Or.inr ⟨a, ha, ?_⟩
      rw [checked, if_pos ha]
      exact hsome

/-- A thread starts to send while the worker sleeps. -/
theorem call_returns_from_sleeping_worker :
    ∃ s : HostBell Unit, s.asker () = .setActive true ∧ s.worker = .parked ∧
      Halts (checked (fun _ => continues) step) continues (returned ()) s := by
  obtain ⟨s, hs, htest⟩ := exists_reachable_of_exec step Undisturbed (start Unit)
    (fun _ => calm) (fun s a h => ⟨by unfold OneAtATime; split <;> simp, h⟩)
    [.worker .run, .worker .run, .worker .run, .worker .sleep, .worker .run, .worker .run,
      .asker () .claim, .asker () (.send true)]
    (fun s => s.asker () = .setActive true ∧ s.worker = .parked) (by decide)
  obtain ⟨ht, hparked⟩ := of_decide_eq_true htest
  exact ⟨s, ht, hparked, call_returns hs (by simp [ht])⟩

end HostBell

end ShmIpc.Slots
