import ShmIpc.Library.Doorbell
import ShmIpc.Slots.HostBell

/-!
No doorbell of a host slot is lost. The worker asleep on the request event is woken for
every published request, whichever threads publish and however their accesses interleave
with reclaims and a closing guest. A host thread asleep on the response event is woken for
its response as long as the threads use the slot one after the other, for whom the
announcement is one word and the event one object.
-/

namespace ShmIpc.Slots

open Library

/-- The announcement is made and not yet withdrawn. -/
def AskerPc.Announced (pc : AskerPc) : Prop :=
  pc = .recheck ∨ pc = .loopCheck ∨ pc = .clock ∨ pc = .parked

/-- The last look at the state found no response. -/
def AskerPc.Cleared (pc : AskerPc) : Prop := pc = .clock ∨ pc = .parked

/-- The request is published, and the worker's announcement yet to be looked for, or found
and the event yet to be signalled. -/
def AskerPc.Owes (pc : AskerPc) : Prop := ∃ w, pc = .loadGuestState w ∨ pc = .signal w

def BellWorkerPc.Owes (pc : BellWorkerPc) : Prop :=
  ∃ next, pc = .loadHostState next ∨ pc = .signal next

theorem AskerPc.sent_awake (w : Bool) : ¬ (AskerPc.sent w).Announced := by
  cases w <;> simp [AskerPc.sent, AskerPc.Announced]

theorem AfterAnswer.pc_awake (next : AfterAnswer) : ¬ (next.pc = .recheck ∨ next.pc = .parked) := by
  cases next <;> simp [AfterAnswer.pc]

/-- A caller asleep on the response event. -/
def responseBell (line : BellLine) (pc : AskerPc) (worker : BellWorkerPc) : Doorbell Unit where
  announced := pc.Announced
  cleared := pc.Cleared
  flag := line.hostState = .waiting
  bell := line.respEvent = true
  ready := line.state = .respReady
  owes := fun _ => worker.Owes
  announced_of_cleared := fun h => Or.inr (Or.inr h)

/-- The worker asleep on the request event. -/
def requestBell {Tid : Type} (line : BellLine) (pc : BellWorkerPc) (asker : Tid → AskerPc) :
    Doorbell Tid where
  announced := pc = .recheck ∨ pc = .parked
  cleared := pc = .parked
  flag := line.guestState = .waiting
  bell := line.reqEvent = true
  ready := line.state = .reqReady
  owes := fun t => (asker t).Owes
  announced_of_cleared := Or.inr

section Programs

variable {Tid : Type} {line line' : BellLine} {pc pc' : AskerPc} {move : AskerMove}
  {closing : Bool} {wpc wpc' : BellWorkerPc} {wmove : BellWorkerMove}

theorem AskerGoes.sleeps (h : AskerGoes line pc move line' pc') (worker : BellWorkerPc) :
    (responseBell line pc worker).Follows (responseBell line' pc' worker) := by
  cases h with
  | announce => exact .of_uncleared (by simp [responseBell, AskerPc.Cleared]) fun _ => Or.inl rfl
  | recheck | wake | expire =>
    refine .of_uncleared (by simp [responseBell, AskerPc.Cleared]) fun _ => Or.inr ⟨?_, id⟩
    simp [responseBell, AskerPc.Announced]
  | loopCheck hstate =>
    exact ⟨fun _ => Or.inr ⟨Or.inr (Or.inl rfl), id⟩, fun _ hr => absurd hr hstate,
      fun _ hr => absurd hr hstate, fun _ => id, fun _ _ _ => Or.inl⟩
  | clock =>
    exact ⟨fun _ => Or.inr ⟨Or.inr (Or.inr (Or.inl rfl)), id⟩, fun _ _ => Or.inl rfl,
      fun _ hr hn => absurd hr hn, fun _ => id, fun _ _ _ => Or.inl⟩
  | guestActive w | signal w => exact .of_awake (AskerPc.sent_awake w)
  | _ => exact .of_awake (by simp [responseBell, AskerPc.Announced])

theorem BellWorkerGoes.rings (h : BellWorkerGoes closing line wpc wmove line' wpc')
    (waiter : AskerPc) :
    (responseBell line waiter wpc).Follows (responseBell line' waiter wpc') := by
  have key : (line.hostState = .waiting → line'.hostState = .waiting) →
      (line.respEvent = true → line'.respEvent = true) →
      (line'.state = .respReady → line.state ≠ .respReady → wpc'.Owes) →
      (line.hostState = .waiting → wpc.Owes → wpc'.Owes ∨ line'.respEvent = true) →
      (responseBell line waiter wpc).Follows (responseBell line' waiter wpc') :=
    fun hflag hbell hready howes =>
      .of_ringer () id id (fun _ hu => absurd rfl hu) hflag hbell hready howes
  cases h with
  | publish next => exact key id id (fun _ _ => ⟨next, Or.inl rfl⟩) (by simp [BellWorkerPc.Owes])
  | hostWaits next =>
    exact key id id (fun hr hn => absurd hr hn) fun _ _ => Or.inl ⟨next, Or.inr rfl⟩
  | hostActive next hhost =>
    exact key id id (fun hr hn => absurd hr hn) fun hwaiting => absurd hwaiting hhost
  | signal next => exact key id (fun _ => rfl) (fun hr hn => absurd hr hn) fun _ _ => Or.inr rfl
  | claim | lock => exact key id id nofun (by simp [BellWorkerPc.Owes])
  | _ => exact key id id (fun hr hn => absurd hr hn) (by simp [BellWorkerPc.Owes])

theorem BellWorkerGoes.sleeps (h : BellWorkerGoes closing line wpc wmove line' wpc')
    (asker : Tid → AskerPc) :
    (requestBell line wpc asker).Follows (requestBell line' wpc' asker) := by
  cases h with
  | announce => exact .of_uncleared nofun fun _ => Or.inl rfl
  | recheck hstate =>
    exact ⟨fun _ => Or.inr ⟨Or.inl rfl, id⟩, fun _ hr => absurd hr hstate,
      fun _ hr => absurd hr hstate, fun _ => id, fun _ _ _ => Or.inl⟩
  | lockFails next | publishFails next | hostActive next | signal next =>
    exact .of_awake next.pc_awake
  | _ => exact .of_awake (by simp [requestBell])

variable [DecidableEq Tid]

theorem AskerGoes.rings {asker : Tid → AskerPc} {t : Tid}
    (h : AskerGoes line (asker t) move line' pc') (waiter : BellWorkerPc) :
    (requestBell line waiter asker).Follows
      (requestBell line' waiter (Function.update asker t pc')) := by
  have key : (line.guestState = .waiting → line'.guestState = .waiting) →
      (line.reqEvent = true → line'.reqEvent = true) →
      (line'.state = .reqReady → line.state ≠ .reqReady → pc'.Owes) →
      (line.guestState = .waiting → (asker t).Owes → pc'.Owes ∨ line'.reqEvent = true) →
      (requestBell line waiter asker).Follows
        (requestBell line' waiter (Function.update asker t pc')) := by
    intro hflag hbell hready howes
    refine .of_ringer t id id ?_ hflag hbell ?_ ?_
    · exact fun u hut hu => by simpa [requestBell, hut] using hu
    · simpa [requestBell] using hready
    · simpa [requestBell] using howes
  generalize asker t = pc₀ at h key
  cases h with
  | publish w => exact key id id (fun _ _ => ⟨w, Or.inl rfl⟩) (by simp [AskerPc.Owes])
  | guestWaits w => exact key id id (fun hr hn => absurd hr hn) fun _ _ => Or.inl ⟨w, Or.inr rfl⟩
  | guestActive w hguest =>
    exact key id id (fun hr hn => absurd hr hn) fun hwaiting => absurd hwaiting hguest
  | signal w => exact key id (fun _ => rfl) (fun hr hn => absurd hr hn) fun _ _ => Or.inr rfl
  | claim | release | finishWait => exact key id id nofun (by simp [AskerPc.Owes])
  | _ => exact key id id (fun hr hn => absurd hr hn) (by simp [AskerPc.Owes])

end Programs

namespace HostBell

variable {Tid : Type} {s s' : HostBell Tid} {a : HostBellAction Tid} {t : Tid}

def requests (s : HostBell Tid) : Doorbell Tid := requestBell s.line s.worker s.asker

def responses (s : HostBell Tid) (t : Tid) : Doorbell Unit :=
  responseBell s.line (s.asker t) s.worker

/-- The threads use the slot one after the other: whoever claims it finds nobody at it. -/
def OneAtATime (s : HostBell Tid) : HostBellAction Tid → Prop
  | .asker t .claim => ∀ u, u ≠ t → s.asker u = .away
  | _ => True

def Alone (s : HostBell Tid) : Prop := ∀ t u, s.asker t ≠ .away → s.asker u ≠ .away → t = u

theorem Alone.others_away {move : AskerMove} {line : BellLine} {pc : AskerPc} (h : s.Alone)
    (hguard : OneAtATime s (.asker t move)) (hgo : AskerGoes s.line (s.asker t) move line pc) :
    ∀ u, u ≠ t → s.asker u = .away := by
  intro u hut
  by_cases ht : s.asker t = .away
  · rw [ht] at hgo
    cases hgo
    exact hguard u hut
  · by_contra hu
    exact hut (h u t hu ht)

variable [DecidableEq Tid]

theorem alone_step (h : s.Alone) (hguard : OneAtATime s a) (hstep : s.step a = some s') :
    s'.Alone := by
  cases goes_of_step hstep with
  | worker | reclaim | close => exact h
  | asker t move line pc hgo =>
    have hmover : ∀ u, Function.update s.asker t pc u ≠ .away → u = t := by
      intro u hu
      by_contra hut
      rw [Function.update_of_ne hut] at hu
      exact hu (h.others_away hguard hgo u hut)
    intro u v hu hv
    rw [hmover u hu, hmover v hv]

theorem alone_of_reachable (hs : Reachable step OneAtATime (start Tid) s) : s.Alone :=
  hs.invariant Alone (fun _ _ ht => absurd rfl ht) fun _ _ _ => alone_step

theorem sound_requests {guard : HostBell Tid → HostBellAction Tid → Prop}
    (hs : Reachable step guard (start Tid) s) : s.requests.Sound := by
  refine Doorbell.sound_of_reachable requests (fun _ => True) (fun _ _ => trivial)
    (.of_awake (by simp [requests, requestBell, start])) ?_ hs
  intro s a s' _ _ hstep
  cases goes_of_step hstep with
  | asker t move line pc hgo => exact hgo.rings _
  | worker move line pc hgo => exact hgo.sleeps _
  | reclaim => exact .of_steady id id id id nofun fun _ _ => Or.inl
  | close => exact .of_steady id id id id (fun hr hn => absurd hr hn) fun _ _ => Or.inl

theorem sound_responses (hs : Reachable step OneAtATime (start Tid) s) (t : Tid) :
    (s.responses t).Sound := by
  refine Doorbell.sound_of_reachable (responses · t) Alone (fun _ => alone_of_reachable)
    (.of_awake (by simp [responses, responseBell, AskerPc.Announced, start])) ?_ hs
  intro s a s' halone hguard hstep
  cases goes_of_step hstep with
  | worker move line pc hgo => exact hgo.rings _
  | reclaim => exact .of_steady id id id id nofun fun _ _ => Or.inl
  | close => exact .of_steady id id id id (fun hr hn => absurd hr hn) fun _ _ => Or.inl
  | asker u move line pc hgo =>
    by_cases htu : t = u
    · subst htu
      simp only [responses, Function.update_self]
      exact hgo.sleeps _
    · apply Doorbell.Follows.of_awake
      simp [responses, responseBell, htu, halone.others_away hguard hgo t htu, AskerPc.Announced]

/-- The worker never sleeps through a request: the event is signalled, or a thread that
published has yet to look at the announcement, which stands, or to signal. -/
theorem sleeping_worker_is_rung (hs : Reachable step (fun _ _ => True) (start Tid) s)
    (hparked : s.worker = .parked) (hready : s.line.state = .reqReady) :
    s.line.reqEvent = true ∨ s.line.guestState = .waiting ∧
      ∃ t w, s.asker t = .loadGuestState w ∨ s.asker t = .signal w :=
  (sound_requests hs).rung hparked hready

/-- A thread publishes after the worker has gone to sleep. -/
theorem sleeping_worker_is_rung_by_publisher :
    ∃ s : HostBell Unit, s.worker = .parked ∧ s.line.state = .reqReady ∧
      (s.line.reqEvent = true ∨ s.line.guestState = .waiting ∧
        ∃ t w, s.asker t = .loadGuestState w ∨ s.asker t = .signal w) := by
  obtain ⟨s, hs, htest⟩ := exists_reachable_of_run step (start Unit)
    [.worker .run, .worker .run, .worker .run, .worker .sleep, .worker .run, .worker .run,
      .asker () .claim, .asker () (.send true), .asker () .run, .asker () .run]
    (fun s => s.worker = .parked ∧ s.line.state = .reqReady) (by decide)
  obtain ⟨hparked, hready⟩ := of_decide_eq_true htest
  exact ⟨s, hparked, hready, sleeping_worker_is_rung hs hparked hready⟩

/-- Nor does a thread sleep through its response, while the others leave the slot alone. -/
theorem sleeping_asker_is_rung (hs : Reachable step OneAtATime (start Tid) s)
    (hparked : s.asker t = .parked) (hready : s.line.state = .respReady) :
    s.line.respEvent = true ∨ s.line.hostState = .waiting ∧
      ∃ next, s.worker = .loadHostState next ∨ s.worker = .signal next := by
  cases (sound_responses hs t).rung (Or.inr hparked) hready with
  | inl hbell => exact Or.inl hbell
  | inr howes => exact Or.inr ⟨howes.1, howes.2.elim fun _ h => h⟩

/-- The worker answers after the caller has gone to sleep. -/
theorem sleeping_asker_is_rung_by_worker :
    ∃ s : HostBell Unit, s.asker () = .parked ∧ s.line.state = .respReady ∧
      (s.line.respEvent = true ∨ s.line.hostState = .waiting ∧
        ∃ next, s.worker = .loadHostState next ∨ s.worker = .signal next) := by
  obtain ⟨s, hs, htest⟩ := exists_reachable_of_exec step OneAtATime (start Unit)
    (fun _ _ => true) (fun s a _ => by unfold OneAtATime; split <;> simp)
    ([.asker () .claim, .asker () (.send true), .asker () .run, .asker () .run,
      .asker () .run, .asker () .sleep, .asker () .run, .asker () .run, .asker () .run,
      .asker () .run] ++ List.replicate 8 (.worker .run))
    (fun s => s.asker () = .parked ∧ s.line.state = .respReady) (by decide)
  obtain ⟨hparked, hready⟩ := of_decide_eq_true htest
  exact ⟨s, hparked, hready, sleeping_asker_is_rung hs hparked hready⟩

end HostBell

end ShmIpc.Slots
