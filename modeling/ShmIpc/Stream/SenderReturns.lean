import ShmIpc.Stream.SendQueue

/-!
Which calls of `StreamSender::Send` end. While the window is feasible the queue of
pending slots never takes the last slot that the next chunk needs, so the thread
is never inside `acquireSlot` without a slot to claim, and a measure of what is
left to publish, to answer and to drain goes down with every step.
-/

namespace ShmIpc.Stream
open Library

namespace SendLoop

variable {C : AnyCall} {s s' : SendLoop} {t : SendState}

/-! ### Every step keeps the shape and counts down -/

structure Steady (C : AnyCall) (s : SendLoop) : Prop where
  pc : s.pc = .outside ∨ s.pc = .inside ∧ s.wantsSlot C = true
  stopped : s.running = false → s.stopsSafely = true
  shape : Shape C s.send s.send.phase

/-- A step to a steady state that is nearer to the end of `Send`. -/
structure Descends (C : AnyCall) (s s' : SendLoop) : Prop where
  steady : Steady C s'
  fewer : stepsLeft C s' + 1 ≤ stepsLeft C s

theorem steady_start (C : AnyCall) : Steady C (start C) :=
  ⟨Or.inl rfl, fun h => Bool.noConfusion h, ⟨rfl, rfl, rfl, rfl, fun _ => rfl⟩⟩

theorem wantsSlot_cases (h : s.wantsSlot C = true) :
    s.send.phase = .start ∨ s.send.phase = .fill ∧ s.send.canFill C.call = true := by
  cases hphase : s.send.phase with
  | start => exact Or.inl rfl
  | fill =>
    simp only [wantsSlot, hphase] at h
    exact Or.inr ⟨rfl, h⟩
  | enter | startWait _ | abortWait _ | drain | failing _ | returned _ =>
    simp only [wantsSlot, hphase] at h
    cases h

theorem Steady.running_of_fill (h : Steady C s) (hphase : s.send.phase = .fill)
    (hpos : 0 < s.send.remaining) : s.running = true := by
  by_contra hnot
  have hsafe := h.stopped (Bool.eq_false_iff.mpr hnot)
  simp [stopsSafely, hphase] at hsafe
  omega

theorem Steady.rotated_lt (hC : C.Proper) (h : Steady C s) (hwants : s.wantsSlot C = true)
    (hbase : 0 ≤ C.base) :
    C.base + (s.send.rr % C.call.maxInFlight : Nat) < C.numSlots := by
  obtain ⟨hlt, hend⟩ := hC.range hbase
  have hshape := h.shape
  cases wantsSlot_cases hwants with
  | inl hphase =>
    rw [hphase] at hshape
    rw [Fresh.rr hshape, Nat.zero_mod]
    simpa using hlt
  | inr hfill =>
    have hroom := (SendState.canFill_iff.mp hfill.2).2
    have hmod := Nat.mod_lt s.send.rr (Nat.zero_lt_of_lt hroom)
    simp only [AnyCall.call] at hmod ⊢
    omega

theorem Steady.exists_acquirable (hC : C.Proper) (hF : C.Feasible) (h : Steady C s)
    (hwants : s.wantsSlot C = true) :
    ∃ slot, slot < C.numSlots ∧ s.send.acquirable C.call slot = true := by
  have hshape := h.shape
  by_cases hbase : C.base < 0
  · have hfree : ∃ slot, slot < C.numSlots ∧ s.send.slots slot = .idle := by
      cases wantsSlot_cases hwants with
      | inl hphase =>
        rw [hphase] at hshape
        exact ⟨0, hF.slots_pos hbase, Fresh.idle hshape 0⟩
      | inr hfill =>
        rw [hfill.1] at hshape
        obtain ⟨hq, -⟩ := hshape
        obtain ⟨hpos, hroom⟩ := SendState.canFill_iff.mp hfill.2
        have hrem := hq.remaining
        have hmin := hF.pool hbase (by omega)
        have hlt : s.send.chunkIndex < C.call.totalChunks :=
          (hC.sized.lt_totalChunks _).mpr (by simp only [AnyCall.call] at hrem ⊢; omega)
        have hle := hq.pending_le
        obtain ⟨slot, hslot, hnot⟩ := exists_lt_notMem s.send.pendingSlots C.numSlots
          (by simp only [AnyCall.call] at hroom hmin hlt ⊢; omega)
        exact ⟨slot, hslot, hq.idle slot hnot⟩
    obtain ⟨slot, hslot, hidle⟩ := hfree
    exact ⟨slot, hslot, by simp [SendState.acquirable, AnyCall.call, hslot, hbase, hidle]⟩
  · have hlt := h.rotated_lt hC hwants (Int.not_lt.mp hbase)
    have hself : (C.rotated s.send.rr : Int) =
        C.base + (s.send.rr % C.call.maxInFlight : Nat) := by
      simp only [AnyCall.rotated]
      omega
    have hidle : s.send.slots (C.rotated s.send.rr) = .idle := by
      cases wantsSlot_cases hwants with
      | inl hphase =>
        rw [hphase] at hshape
        exact Fresh.idle hshape _
      | inr hfill =>
        rw [hfill.1] at hshape
        exact hshape.1.idle _ (hshape.1.rotated_notMem (Int.not_lt.mp hbase)
          (SendState.canFill_iff.mp hfill.2).2)
    refine ⟨C.rotated s.send.rr, by omega, ?_⟩
    simp only [SendState.acquirable, hidle, Bool.and_true, Bool.and_eq_true, Bool.or_eq_true,
      decide_eq_true_eq]
    exact ⟨by simp only [AnyCall.call]; omega, Or.inr hself⟩

theorem steady_enter (hC : C.Proper) (hF : C.Feasible) (h : Steady C s)
    (hpc : s.pc = .outside) (hwants : s.wantsSlot C = true) :
    Descends C s (s.enter C) := by
  have hdown : s.running = true → s.enter C = { s with pc := .inside } := by
    intro hrun
    simp only [enter, hrun, Bool.not_true, Bool.false_eq_true, if_false, false_or]
    split
    · next hbase => rw [if_neg (by have := hF.slots_pos hbase; omega)]
    · next hbase =>
        rw [if_neg (hF.modulus hbase),
          if_neg (Int.not_le.mpr (h.rotated_lt hC hwants (Int.not_lt.mp hbase)))]
  cases hrun : s.running with
  | true =>
    rw [hdown hrun]
    refine ⟨⟨Or.inr ⟨rfl, hwants⟩, fun hstop => ?_, h.shape⟩, ?_⟩
    · rw [hrun] at hstop
      cases hstop
    · simp only [stepsLeft, load, hpc, reduceCtorEq, if_true, if_false]
      omega
  | false =>
    cases wantsSlot_cases hwants with
    | inl hphase =>
      have hback : s.enter C = { s with
          send := { s.send with phase := .returned (.failure .resourceExhausted) } } := by
        simp only [enter, hrun, Bool.not_false, if_true, true_or, refused, hphase]
        split
        · rfl
        · next hbase => rw [if_neg (hF.modulus hbase)]
      rw [hback]
      refine ⟨⟨Or.inl hpc, fun _ => by simp [stopsSafely], trivial⟩, ?_⟩
      simp only [stepsLeft, load, hphase, phaseWeight]
      omega
    | inr hfill =>
      have hgo := h.running_of_fill hfill.1 (SendState.canFill_iff.mp hfill.2).1
      rw [hrun] at hgo
      cases hgo

theorem steady_claimStart (h : Steady C s) (hpc : s.pc = .inside)
    (hphase : s.send.phase = .start) (slot : Nat) (hslot : slot < C.numSlots) :
    let t := { (s.send.advance C.call).setSlot slot (.published .streamStart C.call.startMsg) with
      phase := .startWait slot }
    Descends C s { s with send := t, pc := .outside } := by
  have hshape := h.shape
  rw [hphase] at hshape
  have hfresh : Fresh C s.send := hshape
  have hopen := openSlots_update (C := C) s.send.slots slot
    (.published .streamStart C.call.startMsg) hslot
  rw [hfresh.idle slot] at hopen
  simp only [SlotUse.isOpen, Bool.false_eq_true, if_false, if_true] at hopen
  refine ⟨⟨Or.inl rfl, fun hstop => ?_, ?_⟩, ?_⟩
  · have hsafe := h.stopped hstop
    simp only [stopsSafely, hphase, hpc] at hsafe
    simpa [stopsSafely, SendState.setSlot, SendState.advance] using hsafe
  · refine ⟨hfresh.remaining, hfresh.chunkIndex, fun hbase => ?_, hfresh.pendingSlots, hslot, ?_,
      fun slot' hne => ?_⟩
    · have hnot : ¬ C.call.baseSlot < 0 := Int.not_lt.mpr hbase
      simp only [SendState.setSlot, SendState.advance, if_neg hnot, hfresh.rr]
      rfl
    · simp only [SendState.setSlot, Function.update_self, SlotUse.isHeld]
    · simp only [SendState.setSlot, SendState.advance, Function.update_of_ne hne]
      exact hfresh.idle slot'
  · simp only [stepsLeft, load, SendState.setSlot, SendState.advance, hpc, hphase, phaseWeight,
      reduceCtorEq, if_true, if_false]
    omega

theorem steady_claimChunk (hC : C.Proper) (h : Steady C s) (hpc : s.pc = .inside)
    (hphase : s.send.phase = .fill) (hfill : s.send.canFill C.call = true) (slot : Nat)
    (hslot : s.send.acquirable C.call slot = true) (hlt : slot < C.numSlots) :
    let t := s.send.published C.call slot (s.send.advance C.call).rr
    Descends C s { s with send := t, pc := .outside } := by
  have hshape := h.shape
  rw [hphase] at hshape
  obtain ⟨hq, -⟩ := hshape
  have hq' := hq.published hC.sized slot hslot hfill
  have hsent : s.send.chunkIndex + 1 ≤ C.call.totalChunks := hq'.sent_le
  have hopen := openSlots_update (C := C) s.send.slots slot
    (.published .streamChunk (C.call.chunk s.send.chunkIndex)) hlt
  rw [hq.idle slot (hq.notMem_of_acquirable slot hslot)] at hopen
  simp only [SlotUse.isOpen, Bool.false_eq_true, if_false, if_true] at hopen
  refine ⟨⟨Or.inl rfl, fun hstop => ?_, ?_⟩, ?_⟩
  · rw [h.running_of_fill hphase (SendState.canFill_iff.mp hfill).1] at hstop
    cases hstop
  · have hphase' : (s.send.published C.call slot (s.send.advance C.call).rr).phase = .fill :=
      hphase
    rw [hphase']
    exact ⟨hq', Or.inr (by simp [SendState.published])⟩
  · simp only [stepsLeft, load, SendState.published, hpc, hphase, phaseWeight, reduceCtorEq,
      if_true, if_false, List.length_append, List.length_singleton]
    omega

theorem steady_claim (hC : C.Proper) (h : Steady C s) (hpc : s.pc = .inside)
    (hwants : s.wantsSlot C = true) (slot : Nat) (hacq : s.send.acquire C.call slot = some t) :
    Descends C s { s with send := t, pc := .outside } := by
  simp only [SendState.acquire] at hacq
  split at hacq
  · cases hacq
  · next hslot =>
      rw [Bool.not_eq_true', Bool.not_eq_false] at hslot
      have hlt : slot < C.numSlots := by
        simp only [SendState.acquirable, Bool.and_eq_true, decide_eq_true_eq] at hslot
        exact hslot.1.1
      cases wantsSlot_cases hwants with
      | inl hphase =>
        simp only [hphase, if_neg (Nat.not_le.mpr hC.sized.room), Option.some.injEq] at hacq
        subst hacq
        exact steady_claimStart h hpc hphase slot hlt
      | inr hfill =>
        have hshape := h.shape
        rw [hfill.1] at hshape
        simp only [hfill.1, hfill.2, if_true, Option.some.injEq] at hacq
        rw [SendState.sendChunk_eq hC.sized hshape.1.remaining
          (SendState.canFill_iff.mp hfill.2).1 slot] at hacq
        subst hacq
        exact steady_claimChunk hC h hpc hfill.1 hfill.2 slot hslot hlt

theorem steady_loopTest (hq : Queued C t) (hpc : s.pc = .outside)
    (hstop : s.running = false → t.remaining = 0) :
    Steady C { s with send := t.loopTest } ∧
      stepsLeft C { s with send := t.loopTest } ≤ load C t + 2 + (if s.running then 1 else 0) := by
  simp only [SendState.loopTest]
  split
  · next hmore =>
      refine ⟨⟨Or.inl hpc, fun hs => by simp [stopsSafely, hstop hs], ?_⟩, ?_⟩
      · exact ⟨hq.withPhase .fill, hmore⟩
      · simp only [stepsLeft, load, hpc, phaseWeight, reduceCtorEq, if_false]
        omega
  · refine ⟨⟨Or.inl hpc, fun hs => by simp [stopsSafely, hstop hs], trivial⟩, ?_⟩
    simp only [stepsLeft, load, hpc, phaseWeight, reduceCtorEq, if_false]
    omega

theorem Steady.remaining_eq_zero (h : Steady C s) (hstop : s.running = false)
    (hphase : s.send.phase = .fill ∨ s.send.phase = .drain ∨
      ∃ slot, s.send.phase = .startWait slot) : s.send.remaining = 0 := by
  have hsafe := h.stopped hstop
  rcases hphase with hphase | hphase | ⟨slot, hphase⟩ <;>
    simpa [stopsSafely, hphase] using hsafe

theorem steady_returned (hpc : s.pc = .outside) (hload : load C t = load C s.send)
    (hphase : 0 < phaseWeight s.send.phase) (result : SendResult) :
    Descends C s { s with send := { t with phase := .returned result } } := by
  refine ⟨⟨Or.inl hpc, fun _ => by simp [stopsSafely], trivial⟩, ?_⟩
  have hzero : phaseWeight (.returned result) = 0 := rfl
  simp only [stepsLeft, load, hzero] at hload ⊢
  omega

theorem steady_dropFirst (hheld : Held C s.send) (hpc : s.pc = .outside) {slot : Nat}
    {rest : List Nat} (hpending : s.send.pendingSlots = slot :: rest) (u : SlotUse)
    (hopen : u.isOpen = (s.send.slots slot).isOpen) (error : Error) :
    let t := { s.send.setSlot slot u with pendingSlots := rest, phase := .failing error }
    Descends C s { s with send := t } := by
  have hcount := openSlots_update_eq (C := C) s.send.slots slot u hopen
  have hrest := hheld.tail hpending u
  refine ⟨⟨Or.inl hpc, fun _ => by simp [stopsSafely], ⟨hrest.nodup, hrest.valid, hrest.held⟩⟩, ?_⟩
  simp only [stepsLeft, load, SendState.setSlot, hpending, phaseWeight, hcount, List.length_cons]
  omega

theorem steady_startWait (h : Steady C s) (hpc : s.pc = .outside) (slot : Nat)
    (hphase : s.send.phase = .startWait slot) (hgo : s.send.proceed C.call = some t) :
    Descends C s { s with send := t } := by
  have hshape := h.shape
  rw [hphase] at hshape
  have hstarted : Started C s.send slot := hshape
  simp only [SendState.proceed, hphase] at hgo
  split at hgo
  case h_2 => cases hgo
  case h_1 reply hreply =>
    have hopen := openSlots_update_eq (C := C) s.send.slots slot .idle (by rw [hreply]; rfl)
    split at hgo
    · cases hgo
      exact steady_returned hpc (by simp only [load, SendState.setSlot, hopen])
        (by rw [hphase]; exact Nat.zero_lt_succ _) _
    · cases hgo
      obtain ⟨hsteady, hle⟩ := steady_loopTest (s := s) hstarted.queued hpc
        (fun hs => h.remaining_eq_zero hs (Or.inr (Or.inr ⟨slot, hphase⟩)))
      refine ⟨hsteady, ?_⟩
      simp only [stepsLeft, load, SendState.setSlot, hopen, hphase, hpc, phaseWeight,
        reduceCtorEq, if_false] at hle ⊢
      omega

theorem steady_filled (hF : C.Feasible) (h : Steady C s) (hpc : s.pc = .outside)
    (hphase : s.send.phase = .fill) (hgo : s.send.proceed C.call = some t) :
    Descends C s { s with send := t } := by
  have hshape := h.shape
  rw [hphase] at hshape
  obtain ⟨hq, hmore⟩ := hshape
  simp only [SendState.proceed, hphase] at hgo
  split at hgo
  · cases hgo
  · next hfill =>
      cases hgo
      have hpending : s.send.pendingSlots ≠ [] := by
        rw [SendState.canFill_iff] at hfill
        cases hmore with
        | inl hpos =>
          intro hnil
          have hrem := hq.remaining
          have hwindow := hF.window_pos (by omega)
          apply hfill
          refine ⟨hpos, ?_⟩
          rw [hnil]
          simp only [AnyCall.call, List.length_nil]
          omega
        | inr hne => exact hne
      refine ⟨⟨Or.inl hpc, fun hs => ?_, hq.withPhase .drain, hpending⟩, ?_⟩
      · simp [stopsSafely, h.remaining_eq_zero hs (Or.inl hphase)]
      · simp only [stepsLeft, load, hphase, phaseWeight]
        omega

theorem steady_drain (h : Steady C s) (hpc : s.pc = .outside) (hphase : s.send.phase = .drain)
    (hgo : s.send.proceed C.call = some t) :
    Descends C s { s with send := t } := by
  have hshape := h.shape
  rw [hphase] at hshape
  obtain ⟨hq, hne⟩ := hshape
  obtain ⟨slot, rest, hpending⟩ := List.exists_cons_of_ne_nil hne
  have hq' := hq.tail hpending
  simp only [SendState.proceed, hphase, hpending] at hgo
  split at hgo
  case h_2 => cases hgo
  case h_1 reply hreply =>
    have hopen := openSlots_update_eq (C := C) s.send.slots slot .idle (by rw [hreply]; rfl)
    split at hgo
    · cases hgo
      exact steady_dropFirst hq.toHeld hpc hpending .idle (by rw [hreply]; rfl) _
    · cases hgo
      obtain ⟨hsteady, hle⟩ := steady_loopTest (s := s) hq' hpc
        (fun hs => h.remaining_eq_zero hs (Or.inr (Or.inl hphase)))
      refine ⟨hsteady, ?_⟩
      simp only [stepsLeft, load, SendState.setSlot, hopen, hphase, hpc, hpending, phaseWeight,
        reduceCtorEq, if_false, List.length_cons] at hle ⊢
      omega

theorem steady_failing (h : Steady C s) (hpc : s.pc = .outside) (error : Error)
    (hphase : s.send.phase = .failing error) (hgo : s.send.proceed C.call = some t) :
    Descends C s { s with send := t } := by
  have hshape := h.shape
  rw [hphase] at hshape
  have hheld : Held C s.send := hshape
  simp only [SendState.proceed, hphase] at hgo
  split at hgo
  · next hpending =>
      cases hgo
      exact steady_returned hpc rfl (by rw [hphase]; exact Nat.zero_lt_succ _) _
  · next slot rest hpending =>
      split at hgo
      case h_2 => cases hgo
      case h_1 reply hreply =>
        cases hgo
        have hdrop := steady_dropFirst hheld hpc hpending .idle (by rw [hreply]; rfl) error
        rw [← hphase] at hdrop
        exact hdrop

theorem steady_proceed (hC : C.Proper) (hF : C.Feasible) (h : Steady C s)
    (hpc : s.pc = .outside) (hgo : s.send.proceed C.call = some t) :
    Descends C s { s with send := t } := by
  cases hphase : s.send.phase with
  | enter =>
    have hshape := h.shape
    rw [hphase] at hshape
    have hfresh : Fresh C s.send := hshape
    have hsize : ¬ C.call.data.length > Cpp.kMaxStreamSize := Nat.not_lt.mpr hC.sized.size
    simp only [SendState.proceed, hphase, if_neg hsize, Option.some.injEq] at hgo
    subst hgo
    refine ⟨⟨Or.inl hpc, fun _ => by simp [stopsSafely, hpc], ?_⟩, ?_⟩
    · exact ⟨hfresh.remaining, hfresh.chunkIndex, hfresh.rr, hfresh.pendingSlots, hfresh.idle⟩
    · simp only [stepsLeft, load, hphase, phaseWeight]
      omega
  | start => simp [SendState.proceed, hphase] at hgo
  | startWait slot => exact steady_startWait h hpc slot hphase hgo
  | abortWait slot =>
    have hshape := h.shape
    rw [hphase] at hshape
    exact hshape.elim
  | fill => exact steady_filled hF h hpc hphase hgo
  | drain => exact steady_drain h hpc hphase hgo
  | failing error => exact steady_failing h hpc error hphase hgo
  | returned result => simp [SendState.proceed, hphase] at hgo

theorem abandon_eq (t : SendState) (slot : Nat) (hheld : (t.slots slot).isHeld = true) :
    ∃ u : SlotUse, t.abandon slot = t.setSlot slot u ∧ u.isOpen = (t.slots slot).isOpen := by
  cases huse : t.slots slot with
  | published m req => exact ⟨.abandoned m req, by simp only [SendState.abandon, huse], rfl⟩
  | answered reply => exact ⟨.idle, by simp only [SendState.abandon, huse], rfl⟩
  | idle | abandoned _ _ => rw [huse] at hheld; cases hheld

theorem steady_timeout (h : Steady C s) (hpc : s.pc = .outside)
    (hgo : s.send.timeout = some t) :
    Descends C s { s with send := t } := by
  have hshape := h.shape
  simp only [SendState.timeout] at hgo
  cases hphase : s.send.phase with
  | startWait slot =>
    rw [hphase] at hshape
    obtain ⟨u, habandon, hopen⟩ := abandon_eq s.send slot (Started.held hshape)
    have hcount := openSlots_update_eq (C := C) s.send.slots slot u hopen
    simp only [hphase, habandon, Option.some.injEq] at hgo
    subst hgo
    exact steady_returned hpc (by simp only [load, SendState.setSlot, hcount])
      (by rw [hphase]; exact Nat.zero_lt_succ _) _
  | abortWait slot =>
    rw [hphase] at hshape
    exact hshape.elim
  | drain =>
    rw [hphase] at hshape
    obtain ⟨hq, hne⟩ := hshape
    obtain ⟨slot, rest, hpending⟩ := List.exists_cons_of_ne_nil hne
    obtain ⟨u, habandon, hopen⟩ := abandon_eq s.send slot
      (hq.held slot (hpending ▸ List.mem_cons_self))
    simp only [hphase, hpending, habandon, Option.some.injEq] at hgo
    subst hgo
    exact steady_dropFirst hq.toHeld hpc hpending u hopen _
  | failing error =>
    rw [hphase] at hshape
    have hheld : Held C s.send := hshape
    simp only [hphase] at hgo
    split at hgo
    · cases hgo
    · next slot rest hpending =>
        obtain ⟨u, habandon, hopen⟩ := abandon_eq s.send slot
          (hheld.held slot (hpending ▸ List.mem_cons_self))
        simp only [habandon, Option.some.injEq] at hgo
        subst hgo
        have hdrop := steady_dropFirst hheld hpc hpending u hopen error
        rw [← hphase] at hdrop
        exact hdrop
  | enter | start | fill | returned _ => simp [hphase] at hgo

theorem answer_cases {slot : Nat} {reply : MsgType} (hans : answer s.send slot reply = some t) :
    (s.send.slots slot).isOpen = true ∧
      ∃ u : SlotUse, u.isOpen = false ∧ t = s.send.setSlot slot u ∧
        ((s.send.slots slot).isHeld = true → u = .answered reply) := by
  simp only [answer] at hans
  split at hans
  · next m req huse =>
      cases hans
      rw [huse]
      exact ⟨rfl, .answered reply, rfl, rfl, fun _ => rfl⟩
  · next m req huse =>
      cases hans
      rw [huse]
      exact ⟨rfl, .idle, rfl, rfl, fun hheld => by cases hheld⟩
  · cases hans

theorem shape_answer (hshape : Shape C s.send s.send.phase) {slot : Nat} {reply : MsgType}
    (hans : answer s.send slot reply = some t) : Shape C t s.send.phase := by
  obtain ⟨hopen, u, -, rfl, hu⟩ := answer_cases hans
  have hbusy : s.send.slots slot ≠ .idle := by
    intro hidle
    rw [hidle] at hopen
    cases hopen
  cases hphase : s.send.phase with
  | enter | start =>
    rw [hphase] at hshape
    exact absurd (Fresh.idle hshape slot) hbusy
  | startWait slot₀ =>
    rw [hphase] at hshape
    have hstarted : Started C s.send slot₀ := hshape
    obtain rfl : slot = slot₀ := by
      by_contra hne
      exact hbusy (hstarted.idle slot hne)
    rw [hu hstarted.held]
    refine ⟨hstarted.remaining, hstarted.chunkIndex, hstarted.rr, hstarted.pendingSlots,
      hstarted.valid, ?_, ?_⟩
    · simp only [SendState.setSlot, Function.update_self, SlotUse.isHeld]
    · intro slot' hne
      simp only [SendState.setSlot, Function.update_of_ne hne]
      exact hstarted.idle slot' hne
  | abortWait slot₀ =>
    rw [hphase] at hshape
    exact hshape.elim
  | fill | drain =>
    rw [hphase] at hshape
    obtain ⟨hq, hmore⟩ := hshape
    have hmem : slot ∈ s.send.pendingSlots := by
      by_contra hnot
      exact hbusy (hq.idle slot hnot)
    rw [hu (hq.held slot hmem)]
    exact ⟨hq.answered slot reply hmem, hmore⟩
  | failing error =>
    rw [hphase] at hshape
    have hheld : Held C s.send := hshape
    by_cases hmem : slot ∈ s.send.pendingSlots
    · rw [hu (hheld.held slot hmem)]
      exact hheld.answered slot reply
    · refine ⟨hheld.nodup, hheld.valid, ?_⟩
      intro slot' hmem'
      have hne : slot' ≠ slot := fun heq => hmem (heq ▸ hmem')
      simp only [SendState.setSlot, Function.update_of_ne hne]
      exact hheld.held slot' hmem'
  | returned result => trivial

theorem steady_answer (h : Steady C s) {slot : Nat} {reply : MsgType}
    (hslot : slot < C.numSlots) (hans : answer s.send slot reply = some t) :
    Descends C s { s with send := t } := by
  have hshape := shape_answer h.shape hans
  obtain ⟨hopen, u, hu, rfl, -⟩ := answer_cases hans
  have hcount := openSlots_update (C := C) s.send.slots slot u hslot
  rw [hopen, hu] at hcount
  refine ⟨⟨h.pc, h.stopped, hshape⟩, ?_⟩
  simp only [stepsLeft, load, SendState.setSlot, Bool.false_eq_true, if_true, if_false]
    at hcount ⊢
  omega

theorem steady_step (hC : C.Proper) (hF : C.Feasible) (h : Steady C s) (a : LoopAction)
    (hstop : a = .stop → s.stopsSafely = true) (hstep : step C s a = some s') :
    Descends C s s' := by
  have hwants : s.pc = .inside → s.wantsSlot C = true := by
    intro hpc
    cases h.pc with
    | inl hout => rw [hpc] at hout; cases hout
    | inr hin => exact hin.2
  cases a with
  | enter =>
    obtain ⟨hcond, heq⟩ := Option.ite_none_right_eq_some.mp hstep
    cases heq
    exact steady_enter hC hF h hcond.1 hcond.2
  | claim slot =>
    obtain ⟨hpc, heq⟩ := Option.ite_none_right_eq_some.mp hstep
    obtain ⟨t, hacq, rfl⟩ := Option.map_eq_some_iff.mp heq
    exact steady_claim hC h hpc (hwants hpc) slot hacq
  | giveUp =>
    obtain ⟨⟨hpc, hnone⟩, -⟩ := Option.ite_none_right_eq_some.mp hstep
    obtain ⟨slot, hlt, hslot⟩ := h.exists_acquirable hC hF (hwants hpc)
    rw [hnone slot hlt] at hslot
    cases hslot
  | proceed =>
    obtain ⟨hpc, heq⟩ := Option.ite_none_right_eq_some.mp hstep
    obtain ⟨t, hgo, rfl⟩ := Option.map_eq_some_iff.mp heq
    exact steady_proceed hC hF h hpc hgo
  | timeout =>
    obtain ⟨hpc, heq⟩ := Option.ite_none_right_eq_some.mp hstep
    obtain ⟨t, hgo, rfl⟩ := Option.map_eq_some_iff.mp heq
    exact steady_timeout h hpc hgo
  | answer slot reply =>
    obtain ⟨hslot, heq⟩ := Option.ite_none_right_eq_some.mp hstep
    obtain ⟨t, hans, rfl⟩ := Option.map_eq_some_iff.mp heq
    exact steady_answer h hslot hans
  | stop =>
    obtain ⟨hrun, heq⟩ := Option.ite_none_right_eq_some.mp hstep
    cases heq
    refine ⟨⟨h.pc, fun _ => hstop rfl, h.shape⟩, ?_⟩
    simp only [stepsLeft, hrun, Bool.false_eq_true, if_true, if_false]
    omega

theorem wait_due {slot : Nat} (hpc : s.pc = .outside) (hslot : slot < C.numSlots)
    (hheld : (s.send.slots slot).isHeld = true)
    (hgo : ∀ reply, s.send.slots slot = .answered reply →
      (s.send.proceed C.call).isSome = true) :
    ∃ a, LoopAction.isDue a = true ∧ (step C s a).isSome = true := by
  cases huse : s.send.slots slot with
  | published m req => exact ⟨.answer slot .normal, rfl, by simp [step, answer, hslot, huse]⟩
  | answered reply =>
    refine ⟨.proceed, rfl, ?_⟩
    rw [step, if_pos hpc, Option.isSome_map]
    exact hgo reply huse
  | idle | abandoned _ _ => rw [huse] at hheld; cases hheld

theorem Steady.claim_due (hC : C.Proper) (hF : C.Feasible) (h : Steady C s)
    (hpc : s.pc = .inside) (hwants : s.wantsSlot C = true) :
    ∃ slot, (step C s (.claim slot)).isSome = true := by
  obtain ⟨slot, -, hslot⟩ := h.exists_acquirable hC hF hwants
  refine ⟨slot, ?_⟩
  cases wantsSlot_cases hwants with
  | inl hphase =>
    simp [step, hpc, SendState.acquire, hslot, hphase, Nat.not_le.mpr hC.sized.room]
  | inr hfill => simp [step, hpc, SendState.acquire, hslot, hfill.1, hfill.2]

theorem steady_due (hC : C.Proper) (hF : C.Feasible) (h : Steady C s) :
    s.hasReturned = true ∨ ∃ a, LoopAction.isDue a = true ∧ (step C s a).isSome = true := by
  cases h.pc with
  | inr hin =>
    obtain ⟨slot, hclaim⟩ := h.claim_due hC hF hin.1 hin.2
    exact Or.inr ⟨.claim slot, rfl, hclaim⟩
  | inl hpc =>
    have hshape := h.shape
    cases hphase : s.send.phase with
    | enter =>
      refine Or.inr ⟨.proceed, rfl, ?_⟩
      simp only [step, if_pos hpc, SendState.proceed, hphase]
      split <;> rfl
    | start =>
      refine Or.inr ⟨.enter, rfl, ?_⟩
      simp [step, hpc, wantsSlot, hphase]
    | startWait slot =>
      rw [hphase] at hshape
      refine Or.inr (wait_due hpc (Started.valid hshape) (Started.held hshape) ?_)
      intro reply hreply
      simp only [SendState.proceed, hphase, hreply]
      split <;> rfl
    | abortWait slot =>
      rw [hphase] at hshape
      exact hshape.elim
    | fill =>
      right
      cases hfill : s.send.canFill C.call with
      | true => exact ⟨.enter, rfl, by simp [step, hpc, wantsSlot, hphase, hfill]⟩
      | false => exact ⟨.proceed, rfl, by simp [step, hpc, SendState.proceed, hphase, hfill]⟩
    | drain =>
      rw [hphase] at hshape
      obtain ⟨hq, hne⟩ := hshape
      obtain ⟨slot, rest, hpending⟩ := List.exists_cons_of_ne_nil hne
      have hmem : slot ∈ s.send.pendingSlots := hpending ▸ List.mem_cons_self
      refine Or.inr (wait_due hpc (hq.valid slot hmem) (hq.held slot hmem) ?_)
      intro reply hreply
      simp only [SendState.proceed, hphase, hpending, hreply]
      split <;> rfl
    | failing error =>
      rw [hphase] at hshape
      have hheld : Held C s.send := hshape
      right
      cases hpending : s.send.pendingSlots with
      | nil =>
        exact ⟨.proceed, rfl, by simp [step, hpc, SendState.proceed, hphase, hpending]⟩
      | cons slot rest =>
        have hmem : slot ∈ s.send.pendingSlots := hpending ▸ List.mem_cons_self
        refine wait_due hpc (hheld.valid slot hmem) (hheld.held slot hmem) ?_
        intro reply hreply
        simp only [SendState.proceed, hphase, hpending, hreply]
        rfl
    | returned result => exact Or.inl (by simp only [hasReturned, hphase])

end SendLoop

theorem checked_of_isDue (C : AnyCall) (mayStop : SendLoop → Bool) (s : SendLoop)
    (a : LoopAction) (h : a.isDue = true) :
    checked (LoopAction.allowed mayStop) (SendLoop.step C) s a = SendLoop.step C s a := by
  cases a with
  | enter | claim _ | proceed | answer _ _ => rfl
  | giveUp | timeout | stop => cases h

theorem alwaysReturns_of_feasible {C : AnyCall} (hC : C.Proper) (hF : C.Feasible)
    (mayStop : SendLoop → Bool)
    (hsafe : ∀ s, SendLoop.Steady C s → mayStop s = true → s.stopsSafely = true) :
    AlwaysReturns C mayStop := by
  apply Halts.of_measure (SendLoop.Steady C) (SendLoop.stepsLeft C) (SendLoop.steady_start C)
  · intro s a s' h hstep
    obtain ⟨hallowed, hgo⟩ := Option.ite_none_right_eq_some.mp hstep
    have hsafe' : a = .stop → s.stopsSafely = true := by
      rintro rfl
      exact hsafe s h hallowed
    obtain ⟨hsteady, hfewer⟩ := SendLoop.steady_step hC hF h a hsafe' hgo
    exact ⟨hsteady, hfewer⟩
  · intro s h
    refine (SendLoop.steady_due hC hF h).imp_right ?_
    rintro ⟨a, hdue, hsome⟩
    exact ⟨a, hdue, by rw [checked_of_isDue C mayStop s a hdue]; exact hsome⟩

end ShmIpc.Stream
