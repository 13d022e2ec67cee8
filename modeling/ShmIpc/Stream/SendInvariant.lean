import ShmIpc.Stream.Pipeline

/-!
`Send` from its first to its last step, with the guest and other streams moving
in between: what holds at each point of the call, whatever times out. A call
that has failed owes nothing; one that has returned success was delivered.
-/

namespace ShmIpc.Stream
open Library

namespace SendState

/-- Nothing of the stream has left the sender yet. -/
structure Ready (P : SendCall) (s : SendState) (rr : Nat) : Prop where
  pendingSlots : s.pendingSlots = []
  chunkIndex : s.chunkIndex = 0
  remaining : s.remaining = P.data.length
  rr : 0 ≤ P.baseSlot → s.rr = rr
  quiet : s.guest.Quiet

/-- The start message is out on `slot`. -/
structure Starting (P : SendCall) (s : SendState) (slot : Nat) : Prop where
  ready : Ready P s 1
  idle : ∀ slot', slot' ≠ slot → s.slots slot' = .idle
  status : (s.slots slot = .published .streamStart P.startMsg ∧
      s.guest.inFlight P.streamId = none ∧ s.mine P = []) ∨
    (s.slots slot = .answered .systemError ∧ Go.MaxStreamChunks < P.totalChunks) ∨
    (s.slots slot = .answered .normal ∧ GuestHolds P (fun _ => False) s.guest (s.mine P))

structure Finished (P : SendCall) (s : SendState) : Prop where
  idle : ∀ slot, s.slots slot = .idle
  quiet : s.guest.Quiet
  mine : s.mine P = [P.wholeStream]

structure Unused (P : SendCall) (s : SendState) : Prop where
  ready : Ready P s 0
  idle : ∀ slot, s.slots slot = .idle
  inFlight : s.guest.inFlight P.streamId = none
  mine : s.mine P = []

/-- What holds at each point of `Send`. A failed call owes nothing. -/
def InvAt (P : SendCall) (s : SendState) : SendPhase → Prop
  | .enter => Unused P s
  | .start => Unused P s
  | .startWait slot => Starting P s slot
  | .abortWait _ => False
  | .fill => Windowed P s
  | .drain => Windowed P s
  | .failing _ => True
  | .returned .success => Finished P s
  | .returned (.failure _) => True

def Inv (P : SendCall) (s : SendState) : Prop := InvAt P s s.phase

variable {P : SendCall} {s : SendState}

theorem inv_initial (h : Initial P s) : Inv P s := by
  have hq : s.guest.Quiet := by
    obtain ⟨timeout, events, hguest⟩ := h.guest
    rw [hguest]
    exact (Go.Reassembler.history_run timeout events).2
  have hnone : s.guest.inFlight P.streamId = none := by
    simpa [h.unused] using Go.Reassembler.inFlight_isSome hq P.streamId
  rw [Inv, h.phase]
  exact ⟨⟨h.pendingSlots, h.chunkIndex, h.remaining, fun _ => h.rr, hq⟩, h.slots, hnone,
    by rw [mine, h.delivered]; rfl⟩

theorem inv_loopTest (hP : P.Valid) (h : Windowed P s) : Inv P s.loopTest := by
  simp only [loopTest]
  split
  · exact h.withPhase .fill
  · next hdone =>
      obtain ⟨hrem, hpending⟩ := not_or.mp hdone
      rw [not_not] at hpending
      have hsent : P.totalChunks ≤ s.chunkIndex := by
        have hrem' := h.remaining
        have hlt := hP.sized.lt_totalChunks s.chunkIndex
        omega
      refine ⟨fun slot => h.idle slot (by rw [hpending]; simp), h.guest.quiet, ?_⟩
      refine (h.guest.complete ?_).2
      intro i hi
      left
      simp only [drained, hpending, List.length_nil]
      omega

theorem windowed_of_started (hready : Ready P s 1) (hidle : ∀ slot, s.slots slot = .idle)
    (hguest : GuestHolds P (fun _ => False) s.guest (s.mine P)) : Windowed P s where
  pending_le := by rw [hready.pendingSlots]; exact Nat.zero_le _
  window := by rw [hready.pendingSlots]; exact Nat.zero_le _
  sent_le := by rw [hready.chunkIndex]; exact Nat.zero_le _
  remaining := by rw [hready.chunkIndex, hready.remaining, Nat.zero_mul, Nat.sub_zero]
  nodup := by rw [hready.pendingSlots]; exact List.nodup_nil
  idle := fun slot _ => hidle slot
  inUse := by rw [hready.pendingSlots]; simp
  rotation := by
    intro hbase
    refine ⟨by rw [hready.rr hbase, hready.chunkIndex], ?_⟩
    rw [hready.pendingSlots]
    simp
  guest := by
    refine hguest.congr ?_
    intro i
    simp [Ran, drained, hready.pendingSlots, hready.chunkIndex]

theorem inv_of_fill (hphase : s.phase = .fill) (h : Windowed P s) : Inv P s := by
  rw [Inv, hphase]
  exact h

theorem inv_acquire (hP : P.Valid) (h : Inv P s) (slot : Nat) (s' : SendState)
    (hs' : s.acquire P slot = some s') : Inv P s' := by
  obtain ⟨hslot, huse⟩ := acquires_of_eq hs'
  rw [Inv] at h
  generalize hphase : s.phase = phase at h huse
  cases huse with
  | abort hsmall => exact absurd hP.room (Nat.not_lt.mpr hsmall)
  | start hroom =>
    refine ⟨⟨h.ready.pendingSlots, h.ready.chunkIndex, h.ready.remaining, ?_,
      h.ready.quiet⟩, ?_, Or.inl ⟨?_, h.inFlight, h.mine⟩⟩
    · intro hbase
      simp only [setSlot, advance, if_neg (Int.not_lt.mpr hbase), h.ready.rr hbase]
      rfl
    · intro slot' hne
      simp only [setSlot, advance, Function.update_of_ne hne]
      exact h.idle slot'
    · simp only [setSlot, advance, Function.update_self]
  | chunk hfill =>
    refine inv_of_fill ?_ (windowed_sendChunk hP h hfill slot hslot)
    rw [sendChunk_eq hP.sized h.remaining (canFill_iff.mp hfill).1 slot]
    exact hphase

theorem inv_acquireTimeout (h : Inv P s) (s' : SendState)
    (hs' : s.acquireTimeout P = some s') : Inv P s' := by
  simp only [acquireTimeout] at hs'
  split at hs'
  · cases hs'
  · split at hs'
    · cases hs'
      trivial
    · next hphase =>
        rw [Inv, hphase] at h
        split at hs'
        · cases hs'
          exact Windowed.withPhase h .drain
        · cases hs'
    · cases hs'

theorem inv_started (hP : P.Valid) (slot : Nat) (h : Starting P s slot) (reply : MsgType)
    (hans : s.slots slot = .answered reply) (hreply : reply ≠ .systemError) :
    Inv P (s.setSlot slot .idle).loopTest := by
  have hguest : GuestHolds P (fun _ => False) s.guest (s.mine P) := by
    cases h.status with
    | inl hpub => rw [hpub.1] at hans; cases hans
    | inr hdone =>
      cases hdone with
      | inl herror => rw [herror.1] at hans; cases hans; exact absurd rfl hreply
      | inr hok => exact hok.2
  apply inv_loopTest hP
  refine windowed_of_started ⟨h.ready.pendingSlots, h.ready.chunkIndex, h.ready.remaining,
    h.ready.rr, h.ready.quiet⟩ ?_ hguest
  intro slot'
  by_cases heq : slot' = slot
  · simp only [setSlot, heq, Function.update_self]
  · simp only [setSlot, Function.update_of_ne heq]
    exact h.idle slot' heq

theorem Windowed.answered_normal (h : Windowed P s) (slot : Nat) (rest : List Nat)
    (hpending : s.pendingSlots = slot :: rest) (reply : MsgType)
    (hans : s.slots slot = .answered reply) : reply = .normal := by
  cases h.inUse 0 slot (by rw [hpending]; rfl) with
  | inl hok => rw [hok] at hans; cases hans; rfl
  | inr hpub => rw [hpub] at hans; cases hans

theorem inv_proceed (hP : P.Valid) (h : Inv P s) (s' : SendState)
    (hs' : s.proceed P = some s') : Inv P s' := by
  have hgo := proceeds_of_eq hs'
  rw [Inv] at h
  generalize hphase : s.phase = phase at h hgo
  cases hgo with
  | tooLarge hlarge => exact absurd hlarge (Nat.not_lt.mpr hP.size)
  | enter hsize =>
    exact ⟨⟨h.ready.pendingSlots, h.ready.chunkIndex, h.ready.remaining, h.ready.rr,
      h.ready.quiet⟩, h.idle, h.inFlight, h.mine⟩
  | startRejected | failed => trivial
  | started slot reply hans hreply => exact inv_started hP slot h reply hans hreply
  | aborted => exact h.elim
  | filled hfull => exact Windowed.withPhase h .drain
  | loop hempty => exact inv_loopTest hP h
  | rejected slot rest hpending hans =>
    cases Windowed.answered_normal h slot rest hpending _ hans
  | acknowledged slot rest reply hpending hans hreply =>
    rw [Windowed.answered_normal h slot rest hpending reply hans] at hans
    exact inv_loopTest hP (windowed_popped h slot rest hpending hans)
  | drained error slot rest reply hpending hans =>
    simp only [Inv, setSlot, hphase]
    trivial

theorem inv_timeout (h : Inv P s) (s' : SendState) (hs' : s.timeout = some s') :
    Inv P s' := by
  have hgo := expires_of_eq hs'
  rw [Inv] at h
  generalize hphase : s.phase = phase at h hgo
  cases hgo with
  | start | drain => trivial
  | abort => exact h.elim
  | failing =>
    simp only [Inv, phase_abandon, hphase]
    trivial

theorem handle_start_eq (env : Go.Surroundings) (req : List UInt8) :
    s.handle env .streamStart req =
      ({ s with
          guest := (s.guest.handleStart env req).1
          delivered := s.delivered ++ (s.guest.handleStart env req).2.delivered.toList },
        (s.guest.handleStart env req).2.reply) := rfl

theorem starting_work (hP : P.Valid) (slot : Nat) (h : Starting P s slot) (slot' : Nat)
    (env : Go.Surroundings) (s' : SendState) (hs' : s.work slot' env = some s') :
    Starting P s' slot ∧ s'.phase = s.phase ∧
      s.slots slot = .published .streamStart P.startMsg ∧
      ∃ reply, s'.slots slot = .answered reply := by
  have hslot : slot' = slot := by
    by_contra hne
    simp [work, h.idle slot' hne] at hs'
  subst hslot
  cases h.status with
  | inr hdone =>
    cases hdone with
    | inl herror => simp [work, herror.1] at hs'
    | inr hok => simp [work, hok.1] at hs'
  | inl hpub =>
    obtain ⟨hpub, hnone, hmine⟩ := hpub
    simp only [work, hpub, handle_start_eq, Option.some.injEq] at hs'
    subst hs'
    obtain ⟨hstep, hquiet⟩ :=
      Go.Reassembler.handleStart_step s.guest env P.startMsg h.ready.quiet
    refine ⟨⟨⟨h.ready.pendingSlots, h.ready.chunkIndex, h.ready.remaining, h.ready.rr, hquiet⟩,
      ?_, Or.inr ?_⟩, rfl, hpub, _, Function.update_self _ _ _⟩
    · intro other hne
      simp only [setSlot, Function.update_of_ne hne]
      exact h.idle other hne
    · by_cases hmany : P.totalChunks > Go.MaxStreamChunks
      · left
        have hanswer := start_answer hP s.guest env
        rw [if_pos hmany] at hanswer
        simp only [setSlot, Function.update_self, hanswer]
        exact ⟨rfl, hmany⟩
      · right
        obtain ⟨hreply, hholds⟩ := guestHolds_start hP s.guest env h.ready.quiet hnone
          (Nat.not_lt.mp hmany)
        have hfilter : mine P { s with
            guest := (s.guest.handleStart env P.startMsg).1
            delivered := s.delivered ++
              (s.guest.handleStart env P.startMsg).2.delivered.toList } =
            (s.guest.handleStart env P.startMsg).2.delivered.toList := by
          rw [mine, List.filter_append, hholds.filter_mine]
          exact (congrArg (· ++ _) hmine).trans (List.nil_append _)
        simp only [setSlot, Function.update_self, hreply, true_and]
        rw [← hfilter] at hholds
        exact hholds

theorem work_phase (slot : Nat) (env : Go.Surroundings) (s' : SendState)
    (hs' : s.work slot env = some s') : s'.phase = s.phase := by
  simp only [work] at hs'
  split at hs'
  · cases hs'; rfl
  · cases hs'; rfl
  · cases hs'

theorem inv_work (hP : P.Valid) (h : Inv P s) (slot : Nat) (env : Go.Surroundings)
    (s' : SendState) (hs' : s.work slot env = some s') : Inv P s' := by
  have hphase' := work_phase slot env s' hs'
  rw [Inv, hphase']
  rw [Inv] at h
  cases hphase : s.phase with
  | enter | start =>
    rw [hphase] at h
    simp [work, h.idle slot] at hs'
  | startWait slot' =>
    rw [hphase] at h
    exact (starting_work hP slot' h slot env s' hs').1
  | abortWait slot' => rw [hphase] at h; exact h.elim
  | fill | drain =>
    rw [hphase] at h
    exact (windowed_work hP h slot env s' hs').1
  | failing error => trivial
  | returned r =>
    cases r with
    | failure error => trivial
    | success =>
      rw [hphase] at h
      simp [work, h.idle slot] at hs'

theorem Starting.frame {slot : Nat} (h : Starting P s slot) (guest : Go.Reassembler)
    (delivered : List Delivery) (hquiet : guest.Quiet)
    (hflight : guest.inFlight P.streamId = s.guest.inFlight P.streamId)
    (hmine : (delivered.filter fun d => d.streamId = P.streamId) = s.mine P) :
    Starting P { s with guest := guest, delivered := delivered } slot := by
  refine ⟨⟨h.ready.pendingSlots, h.ready.chunkIndex, h.ready.remaining, h.ready.rr, hquiet⟩,
    h.idle, ?_⟩
  cases h.status with
  | inl hpub => exact Or.inl ⟨hpub.1, hflight.trans hpub.2.1, hmine.trans hpub.2.2⟩
  | inr hdone =>
    cases hdone with
    | inl herror => exact Or.inr (Or.inl herror)
    | inr hok =>
      refine Or.inr (Or.inr ⟨hok.1, ?_⟩)
      have hholds := hok.2.frame hquiet hflight
      rw [← hmine] at hholds
      exact hholds

theorem inv_other (h : Inv P s) (env : Go.Surroundings) (m : MsgType) (req : List UInt8)
    (s' : SendState) (hs' : s.other P env m req = some s') : Inv P s' := by
  have hphase' : s'.phase = s.phase := by
    simp only [other] at hs'
    split at hs'
    · cases hs'
    · split at hs'
      · cases hs'
      · cases hs'; rfl
  rw [Inv, hphase']
  rw [Inv] at h
  cases hphase : s.phase with
  | enter | start =>
    rw [hphase] at h
    obtain ⟨hquiet, hflight, hmine, guest, delivered, rfl⟩ :=
      other_frame h.ready.quiet env m req s' hs'
    exact ⟨⟨h.ready.pendingSlots, h.ready.chunkIndex, h.ready.remaining, h.ready.rr, hquiet⟩,
      h.idle, hflight.trans h.inFlight, hmine.trans h.mine⟩
  | startWait slot =>
    rw [hphase] at h
    obtain ⟨hquiet, hflight, hmine, guest, delivered, rfl⟩ :=
      other_frame h.ready.quiet env m req s' hs'
    exact Starting.frame h guest delivered hquiet hflight hmine
  | abortWait slot => rw [hphase] at h; exact h.elim
  | fill | drain =>
    rw [hphase] at h
    exact windowed_other h env m req s' hs'
  | failing error => trivial
  | returned r =>
    cases r with
    | failure error => trivial
    | success =>
      rw [hphase] at h
      obtain ⟨hquiet, -, hmine, guest, delivered, rfl⟩ :=
        other_frame h.quiet env m req s' hs'
      exact ⟨h.idle, hquiet, hmine.trans h.mine⟩

theorem inv_step (hP : P.Valid) (s : SendState) (a : SendAction) (s' : SendState)
    (h : Inv P s) (hs' : s.step P a = some s') : Inv P s' := by
  cases a with
  | acquire slot => exact inv_acquire hP h slot s' hs'
  | acquireTimeout => exact inv_acquireTimeout h s' hs'
  | proceed => exact inv_proceed hP h s' hs'
  | timeout => exact inv_timeout h s' hs'
  | work slot env => exact inv_work hP h slot env s' hs'
  | other env m req => exact inv_other h env m req s' hs'

end SendState

end ShmIpc.Stream
