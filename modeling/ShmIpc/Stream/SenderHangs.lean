import ShmIpc.Stream.SenderReturns

/-!
The calls of `StreamSender::Send` that do not end. Outside the feasible windows the
thread divides by zero, goes round an empty loop, or waits inside `AcquireSlot`
for slots that it holds itself; and a host that stops before the last chunk has
its slot makes the thread go round the loop with every acquisition refused.
-/

namespace ShmIpc.Stream
open Library

namespace SendLoop

variable {C : AnyCall} {mayStop : SendLoop → Bool}

/-! ### Up to the first chunk -/

def early (C : AnyCall) (phase : SendPhase) (rr : Nat) (slots : Nat → SlotUse)
    (pc : AcquirePc) : SendLoop :=
  ⟨⟨phase, C.data.length, 0, rr, [], slots, .new 0, []⟩, true, pc⟩

def startSlot (C : AnyCall) : Nat := if C.base < 0 then 0 else C.base.toNat

def startedRR (C : AnyCall) : Nat := if C.base < 0 then 0 else 1

/-- Only the slot of the START is in use. -/
def startUses (C : AnyCall) (u : SlotUse) : Nat → SlotUse :=
  Function.update (fun _ => .idle) (startSlot C) u

def starting (C : AnyCall) (u : SlotUse) : SendLoop :=
  early C (.startWait (startSlot C)) (startedRR C) (startUses C u) .outside

theorem slots_starting (C : AnyCall) (u : SlotUse) :
    (starting C u).send.slots (startSlot C) = u := by
  simp only [starting, early, startUses, Function.update_self]

/-- The START has been answered and the fill loop begins. -/
def begun (C : AnyCall) : SendLoop := early C .fill (startedRR C) (fun _ => .idle) .outside

def startRun (C : AnyCall) : List LoopAction :=
  [.proceed, .enter, .claim (startSlot C), .answer (startSlot C) .normal, .proceed]

theorem exec_due {s s' : SendLoop} {a : LoopAction} {acts : List LoopAction}
    (hdue : a.isDue = true) (hstep : step C s a = some s') :
    exec (checked (LoopAction.allowed mayStop) (step C)) s (a :: acts) =
      exec (checked (LoopAction.allowed mayStop) (step C)) s' acts := by
  rw [exec, checked_of_isDue C mayStop s a hdue, hstep, Option.bind_some]

theorem step_enterSend (hC : C.Proper) :
    step C (start C) .proceed = some (early C .start 0 (fun _ => .idle) .outside) := by
  have hsize : ¬ C.call.data.length > Cpp.kMaxStreamSize := Nat.not_lt.mpr hC.sized.size
  simp only [step, start, SendState.proceed, if_neg hsize, if_true, Option.map_some, early]

theorem step_askStart (hC : C.Proper) (hpool : C.base < 0 → 1 ≤ C.numSlots)
    (hrange : ¬ C.base < 0 → C.inFlight ≠ 0) :
    step C (early C .start 0 (fun _ => .idle) .outside) .enter =
      some (early C .start 0 (fun _ => .idle) .inside) := by
  simp only [step, early, wantsSlot, and_self, if_true, enter, Bool.not_true,
    Bool.false_eq_true, if_false, false_or, Nat.zero_mod]
  split
  · next hbase => rw [if_neg (by have := hpool hbase; omega)]
  · next hbase =>
      have hfirst := (hC.range (Int.not_lt.mp hbase)).1
      rw [if_neg (hrange hbase), if_neg (by simpa using hfirst)]

theorem startSlot_lt (hC : C.Proper) (hpool : C.base < 0 → 1 ≤ C.numSlots) :
    startSlot C < C.numSlots := by
  simp only [startSlot]
  split
  · next hbase => exact hpool hbase
  · next hbase =>
      have hlt := (hC.range (Int.not_lt.mp hbase)).1
      omega

theorem acquirable_startSlot (hlt : startSlot C < C.numSlots) :
    SendState.acquirable C.call (early C .start 0 (fun _ => .idle) .inside).send
      (startSlot C) = true := by
  simp only [SendState.acquirable, early, Nat.zero_mod, Bool.and_true, Bool.and_eq_true,
    Bool.or_eq_true, decide_eq_true_eq]
  refine ⟨hlt, ?_⟩
  by_cases hbase : C.base < 0
  · exact Or.inl hbase
  · right
    rw [startSlot, if_neg hbase, Int.toNat_of_nonneg (Int.not_lt.mp hbase)]
    exact decide_eq_true (Int.add_zero C.base).symm

theorem step_claimStart (hC : C.Proper) (hlt : startSlot C < C.numSlots) :
    step C (early C .start 0 (fun _ => .idle) .inside) (.claim (startSlot C)) =
      some (starting C (.published .streamStart C.call.startMsg)) := by
  have hpc : (early C .start 0 (fun _ => .idle) .inside).pc = .inside := rfl
  simp only [step, if_pos hpc, SendState.acquire, acquirable_startSlot hlt, Bool.not_true,
    Bool.false_eq_true, if_false]
  simp only [early, if_neg (Nat.not_le.mpr hC.sized.room), Option.map_some]
  rfl

theorem step_answerStart (hlt : startSlot C < C.numSlots) (m : MsgType) (req : List UInt8)
    (reply : MsgType) :
    step C (starting C (.published m req)) (.answer (startSlot C) reply) =
      some (starting C (.answered reply)) := by
  simp only [step, if_pos hlt, answer, slots_starting, Option.map_some]
  simp only [starting, early, SendState.setSlot, startUses, Function.update_idem]

theorem step_collectStart (hdata : 0 < C.data.length) :
    step C (starting C (.answered .normal)) .proceed = some (begun C) := by
  have hphase : (starting C (.answered .normal)).send.phase = .startWait (startSlot C) := rfl
  have hpc : (starting C (.answered .normal)).pc = .outside := rfl
  have hidle : Function.update (fun _ => SlotUse.idle) (startSlot C) .idle = fun _ => .idle :=
    Function.update_eq_self (f := fun _ => SlotUse.idle) (startSlot C)
  simp only [step, if_pos hpc, SendState.proceed, hphase, slots_starting, reduceCtorEq,
    if_false, Option.map_some]
  simp only [starting, begun, early, SendState.loopTest, SendState.setSlot, gt_iff_lt, hdata,
    true_or, if_true, startUses, Function.update_idem, hidle]

theorem exec_startRun (hC : C.Proper) (hdata : 0 < C.data.length)
    (hpool : C.base < 0 → 1 ≤ C.numSlots) (hrange : ¬ C.base < 0 → C.inFlight ≠ 0) :
    exec (checked (LoopAction.allowed mayStop) (step C)) (start C) (startRun C) =
      some (begun C) := by
  have hlt := startSlot_lt hC hpool
  rw [startRun, exec_due rfl (step_enterSend hC), exec_due rfl (step_askStart hC hpool hrange),
    exec_due rfl (step_claimStart hC hlt), exec_due rfl (step_answerStart hlt _ _ _),
    exec_due rfl (step_collectStart hdata), exec]

/-! ### Four ways not to return -/

theorem hangs_of_zero (hC : C.Proper)
    (hzero : C.base < 0 ∧ C.numSlots = 0 ∨ ¬ C.base < 0 ∧ C.inFlight = 0) :
    ¬ AlwaysReturns C mayStop := by
  have hcrash : step C (early C .start 0 (fun _ => .idle) .outside) .enter =
      some (early C .start 0 (fun _ => .idle) .crashed) := by
    simp only [step, early, wantsSlot, and_self, if_true, enter, Bool.not_true,
      Bool.false_eq_true, if_false]
    cases hzero with
    | inl hpool => rw [if_pos hpool.1, if_pos hpool.2]
    | inr hrange => rw [if_neg hrange.1, if_pos hrange.2]
  refine not_halts_of_stuck [.proceed, .enter]
    (by rw [exec_due rfl (step_enterSend hC), exec_due rfl hcrash, exec]) rfl ?_
  intro a hdue
  rw [checked_of_isDue C mayStop _ a hdue]
  cases a with
  | enter | claim _ | proceed => rfl
  | answer slot reply =>
    simp only [step, early, answer, Option.map_none, ite_self]
  | giveUp | timeout | stop => cases hdue

theorem hangs_of_emptyWindow (hC : C.Proper) (hdata : 0 < C.data.length)
    (hpool : C.base < 0 → 1 ≤ C.numSlots) (hrange : ¬ C.base < 0 → C.inFlight ≠ 0)
    (hempty : C.inFlight < 1) : ¬ AlwaysReturns C mayStop := by
  have hfill : (begun C).send.canFill C.call = false := by
    have hwindow : C.inFlight.toNat = 0 := by omega
    simp only [SendState.canFill, begun, early, AnyCall.call, hwindow, List.length_nil,
      Nat.lt_irrefl, decide_false, Bool.and_false]
  have hdrain : step C (begun C) .proceed =
      some (early C .drain (startedRR C) (fun _ => .idle) .outside) := by
    have hpc : (begun C).pc = .outside := rfl
    have hphase : (begun C).send.phase = .fill := rfl
    simp only [step, if_pos hpc, SendState.proceed, hphase, hfill, Bool.false_eq_true, if_false,
      Option.map_some]
    rfl
  have hround : step C (early C .drain (startedRR C) (fun _ => .idle) .outside) .proceed =
      some (begun C) := by
    simp only [step, early, if_true, SendState.proceed, SendState.loopTest, gt_iff_lt, hdata,
      true_or, Option.map_some, begun]
  exact not_halts_of_cycle (startRun C) [.proceed, .proceed]
    (exec_startRun hC hdata hpool hrange)
    (by rw [exec_due rfl hdrain, exec_due rfl hround, exec]) (List.cons_ne_nil _ _)

/-- The host stopped before the first chunk has its slot. -/
def halted (C : AnyCall) (phase : SendPhase) : SendLoop :=
  { early C phase (startedRR C) (fun _ => .idle) .outside with running := false }

theorem hangs_of_stop (hC : C.Proper) (hdata : 0 < C.data.length)
    (hpool : C.base < 0 → 1 ≤ C.numSlots) (hwindow : 1 ≤ C.inFlight)
    (hstop : mayStop (begun C) = true) : ¬ AlwaysReturns C mayStop := by
  have hfill : (halted C .fill).send.canFill C.call = true := by
    rw [SendState.canFill_iff]
    refine ⟨hdata, ?_⟩
    simp only [halted, early, AnyCall.call, List.length_nil]
    omega
  have hrefused : step C (halted C .fill) .enter = some (halted C .drain) := by
    have hcond : (halted C .fill).pc = .outside ∧ (halted C .fill).wantsSlot C = true :=
      ⟨rfl, hfill⟩
    have hmodulus : C.inFlight ≠ 0 := by omega
    simp only [step, if_pos hcond, enter, if_neg hmodulus]
    simp only [halted, early, refused, Bool.not_false, if_true, true_or, ite_self]
  have hround : step C (halted C .drain) .proceed = some (halted C .fill) := by
    simp only [step, halted, early, if_true, SendState.proceed, SendState.loopTest, gt_iff_lt,
      hdata, true_or, Option.map_some]
  have hhalt : exec (checked (LoopAction.allowed mayStop) (step C)) (begun C) [.stop] =
      some (halted C .fill) := by
    simp only [exec, checked, LoopAction.allowed, hstop, if_true]
    rfl
  refine not_halts_of_cycle (startRun C ++ [.stop]) [.enter, .proceed] (s := halted C .fill) ?_
    (by rw [exec_due rfl hrefused, exec_due rfl hround, exec]) (List.cons_ne_nil _ _)
  rw [exec_append, exec_startRun hC hdata hpool (fun _ => by omega), Option.bind_some, hhalt]

/-- The thread holds the first `k` slots of the pool, each with its answer. -/
def holding (C : AnyCall) (k : Nat) (pc : AcquirePc) : SendLoop :=
  ⟨⟨.fill, C.data.length - k * C.call.maxPayload, k, 0, List.range k,
    fun slot => if slot < k then .answered .normal else .idle, .new 0, []⟩, true, pc⟩

section OwnSlots

variable (hC : C.Proper) (hbase : C.base < 0)
  (hfew : (C.numSlots : Int) < min (C.call.totalChunks : Int) C.inFlight)
include hC hfew

theorem canFill_holding (k : Nat) (hk : k ≤ C.numSlots) (pc : AcquirePc) :
    (holding C k pc).send.canFill C.call = true := by
  rw [SendState.canFill_iff]
  have hlt := (hC.sized.lt_totalChunks k).mp (by omega)
  simp only [holding, List.length_range, AnyCall.call] at hlt ⊢
  omega

include hbase

theorem step_ask (k : Nat) (hk : k ≤ C.numSlots) (hpos : 0 < C.numSlots) :
    step C (holding C k .outside) .enter = some (holding C k .inside) := by
  have hcond : (holding C k .outside).pc = .outside ∧
      (holding C k .outside).wantsSlot C = true := ⟨rfl, canFill_holding hC hfew k hk .outside⟩
  have hrun : (holding C k .outside).running = true := rfl
  simp only [step, if_pos hcond, enter, if_pos hbase, hrun, Bool.not_true, Bool.false_eq_true,
    if_false, if_neg (Nat.ne_of_gt hpos)]
  rfl

theorem exec_hold (k : Nat) (hk : k < C.numSlots) :
    exec (checked (LoopAction.allowed mayStop) (step C)) (holding C k .outside)
      [.enter, .claim k, .answer k .normal] = some (holding C (k + 1) .outside) := by
  have hfill := canFill_holding hC hfew k (Nat.le_of_lt hk) .inside
  have hslot : (holding C k .inside).send.acquirable C.call k = true := by
    simp [SendState.acquirable, holding, AnyCall.call, hk, hbase]
  have hsent := SendState.sendChunk_eq (s := (holding C k .inside).send) hC.sized rfl
    (SendState.canFill_iff.mp hfill).1 k
  have hclaim : step C (holding C k .inside) (.claim k) =
      some ⟨(holding C k .inside).send.published C.call k 0, true, .outside⟩ := by
    have hpc : (holding C k .inside).pc = .inside := rfl
    have hphase : (holding C k .inside).send.phase = .fill := rfl
    have hrr : ((holding C k .inside).send.advance C.call).rr = 0 := if_pos hbase
    simp only [step, if_pos hpc, SendState.acquire, hslot, Bool.not_true, Bool.false_eq_true,
      if_false, hphase, hfill, if_true, Option.map_some, hsent, hrr]
    rfl
  have hanswer : step C ⟨(holding C k .inside).send.published C.call k 0, true, .outside⟩
      (.answer k .normal) = some (holding C (k + 1) .outside) := by
    have huse : ((holding C k .inside).send.published C.call k 0).slots k =
        .published .streamChunk (C.call.chunk k) := Function.update_self ..
    have hslots : Function.update (fun slot => if slot < k then SlotUse.answered .normal else .idle)
        k (.answered .normal) =
        fun slot => if slot < k + 1 then .answered .normal else .idle := by
      funext slot
      by_cases heq : slot = k
      · rw [heq, Function.update_self, if_pos (Nat.lt_succ_self k)]
      · rw [Function.update_of_ne heq]
        by_cases hlt : slot < k
        · rw [if_pos hlt, if_pos (by omega)]
        · rw [if_neg hlt, if_neg (by omega)]
    simp only [step, if_pos hk, answer, huse, Option.map_some]
    simp only [SendState.setSlot, SendState.published, holding, Function.update_idem, hslots,
      List.range_succ]
    rfl
  rw [exec_due rfl (step_ask hC hbase hfew k (Nat.le_of_lt hk) (by omega)),
    exec_due rfl hclaim, exec_due rfl hanswer, exec]

theorem exists_holding (k : Nat) (hk : k ≤ C.numSlots) :
    ∃ acts, exec (checked (LoopAction.allowed mayStop) (step C)) (holding C 0 .outside) acts =
      some (holding C k .outside) := by
  induction k with
  | zero => exact ⟨[], rfl⟩
  | succ k ih =>
    obtain ⟨acts, hacts⟩ := ih (by omega)
    refine ⟨acts ++ [.enter, .claim k, .answer k .normal], ?_⟩
    rw [exec_append, hacts]
    exact exec_hold hC hbase hfew k hk

/-- The thread waits inside `AcquireSlot` with every slot of the pool answered
and its own: no slot is claimable, and it does not drain. -/
theorem hangs_of_ownSlots (hpos : 0 < C.numSlots) : ¬ AlwaysReturns C mayStop := by
  have hdata : 0 < C.data.length := by
    have hlt := (hC.sized.lt_totalChunks 0).mp (by omega)
    rwa [Nat.zero_mul] at hlt
  have hbegun : begun C = holding C 0 .outside := by
    simp only [begun, early, holding, startedRR, if_pos hbase, Nat.zero_mul, Nat.sub_zero,
      List.range_zero, Nat.not_lt_zero, if_false]
  obtain ⟨acts, hacts⟩ : ∃ acts, exec (checked (LoopAction.allowed mayStop) (step C))
      (holding C 0 .outside) acts = some (holding C C.numSlots .outside) :=
    exists_holding hC hbase hfew C.numSlots (Nat.le_refl _)
  refine not_halts_of_stuck (startRun C ++ (acts ++ [.enter]))
    (s := holding C C.numSlots .inside) ?_ rfl ?_
  · rw [exec_append, exec_startRun hC hdata (fun _ => hpos) (fun h => absurd hbase h),
      Option.bind_some, hbegun, exec_append, hacts, Option.bind_some,
      exec_due rfl (step_ask hC hbase hfew C.numSlots (Nat.le_refl _) hpos), exec]
  · intro a hdue
    rw [checked_of_isDue C mayStop _ a hdue]
    cases a with
    | enter | proceed => rfl
    | claim slot =>
      have hslot : (holding C C.numSlots .inside).send.acquirable C.call slot = false := by
        by_cases hlt : slot < C.numSlots
        · simp [SendState.acquirable, holding, hlt]
        · simp [SendState.acquirable, AnyCall.call, hlt]
      simp only [step, SendState.acquire, hslot, Bool.not_false, if_true, Option.map_none,
        ite_self]
    | answer slot reply =>
      by_cases hlt : slot < C.numSlots
      · simp [step, hlt, answer, holding]
      · simp [step, hlt]
    | giveUp | timeout | stop => cases hdue

end OwnSlots

end SendLoop

theorem feasible_of_alwaysReturns {C : AnyCall} (hC : C.Proper) {mayStop : SendLoop → Bool}
    (h : AlwaysReturns C mayStop) : C.Feasible := by
  by_contra hnot
  simp only [AnyCall.Feasible] at hnot
  split at hnot
  · next hbase =>
      by_cases hpos : 1 ≤ C.numSlots
      · obtain ⟨hdata, hwindow⟩ := not_or.mp (fun hor => hnot ⟨hpos, hor⟩)
        have hlen := List.length_pos_iff.mpr hdata
        by_cases hempty : C.inFlight < 1
        · exact SendLoop.hangs_of_emptyWindow hC hlen (fun _ => hpos)
            (fun hrange => absurd hbase hrange) hempty h
        · exact SendLoop.hangs_of_ownSlots hC hbase
            (by by_contra hle; exact hwindow ⟨by omega, by omega⟩) hpos h
      · exact SendLoop.hangs_of_zero hC (Or.inl ⟨hbase, by omega⟩) h
  · next hbase =>
      by_cases hzero : C.inFlight = 0
      · exact SendLoop.hangs_of_zero hC (Or.inr ⟨hbase, hzero⟩) h
      · obtain ⟨hdata, hwindow⟩ := not_or.mp (fun hor => hnot ⟨hzero, hor⟩)
        exact SendLoop.hangs_of_emptyWindow hC (List.length_pos_iff.mpr hdata)
          (fun hpool => absurd hpool hbase) (fun _ => hzero) (by omega) h

theorem SendLoop.Steady.stopsSafely_of_empty {C : AnyCall} {s : SendLoop}
    (h : SendLoop.Steady C s) (hdata : C.data = []) : s.stopsSafely = true := by
  have hshape := h.shape
  cases hphase : s.send.phase with
  | start =>
    rw [hphase] at hshape
    simp [SendLoop.stopsSafely, SendLoop.Fresh.remaining hshape, hdata]
  | startWait slot =>
    rw [hphase] at hshape
    simp [SendLoop.stopsSafely, SendLoop.Started.remaining hshape, hdata]
  | abortWait slot =>
    rw [hphase] at hshape
    exact hshape.elim
  | fill | drain =>
    rw [hphase] at hshape
    simp [SendLoop.stopsSafely, hshape.1.remaining, hdata]
  | enter | failing _ | returned _ => simp [SendLoop.stopsSafely, hphase]

/-- The sender is the only user of the slots, which are all free at the start. `Send`
ends exactly when its window is feasible, as long as the host stops only before the
START asks for its slot or after the last chunk is out. When the host may stop
anywhere, only the empty stream is sure to end. -/
theorem send_returns_iff (C : AnyCall) (hC : C.Proper) :
    (AlwaysReturns C SendLoop.stopsSafely ↔ C.Feasible) ∧
      (AlwaysReturns C (fun _ => true) ↔ C.Feasible ∧ C.data = []) := by
  refine ⟨⟨feasible_of_alwaysReturns hC, ?_⟩, ?_, ?_⟩
  · intro hF
    exact alwaysReturns_of_feasible hC hF _ (fun _ _ hsafe => hsafe)
  · intro h
    have hF := feasible_of_alwaysReturns hC h
    refine ⟨hF, ?_⟩
    by_contra hdata
    have hlen := List.length_pos_iff.mpr hdata
    exact SendLoop.hangs_of_stop hC hlen hF.slots_pos (hF.window_pos hlen) rfl h
  · rintro ⟨hF, hdata⟩
    exact alwaysReturns_of_feasible hC hF _ (fun s hs _ => hs.stopsSafely_of_empty hdata)

/-- Slots of 26 bytes, so that a chunk carries two. -/
def smallCall (numSlots : Nat) (inFlight base : Int) (data : List UInt8) : AnyCall :=
  ⟨numSlots, 26, inFlight, base, data, 7, 9⟩

theorem smallCall_proper (numSlots : Nat) (inFlight base : Int) (data : List UInt8)
    (hsize : data.length ≤ 2 ^ 30)
    (hrange : 0 ≤ base → base < numSlots ∧ base + inFlight ≤ numSlots) :
    (smallCall numSlots inFlight base data).Proper :=
  ⟨⟨(by decide : 24 < 26), hsize, (by decide : 7 < 2 ^ 64), (by decide : 9 < 2 ^ 32)⟩, hrange⟩

theorem send_returns_twoSlots :
    AlwaysReturns (smallCall 2 2 (-1) [1, 2, 3]) SendLoop.stopsSafely ∧
      ¬ AlwaysReturns (smallCall 2 2 (-1) [1, 2, 3]) (fun _ => true) := by
  obtain ⟨hsafe, hany⟩ := send_returns_iff (smallCall 2 2 (-1) [1, 2, 3])
    (smallCall_proper 2 2 (-1) [1, 2, 3] (by decide) (by decide))
  refine ⟨hsafe.mpr ?_, fun h => ?_⟩
  · rw [AnyCall.Feasible]
    decide
  · cases (hany.mp h).2

/-- A window of zero, a rotation of zero slots and a window larger than the pool
hang on a host that never stops; the call above hangs when the host stops. -/
theorem send_may_hang :
    ((smallCall 2 0 (-1) [1]).Proper ∧
      ¬ AlwaysReturns (smallCall 2 0 (-1) [1]) (fun _ => false)) ∧
    ((smallCall 2 0 0 [1]).Proper ∧
      ¬ AlwaysReturns (smallCall 2 0 0 [1]) (fun _ => false)) ∧
    ((smallCall 1 2 (-1) [1, 2, 3]).Proper ∧
      ¬ AlwaysReturns (smallCall 1 2 (-1) [1, 2, 3]) (fun _ => false)) ∧
    ((smallCall 2 2 (-1) [1, 2, 3]).Proper ∧
      ¬ AlwaysReturns (smallCall 2 2 (-1) [1, 2, 3]) (fun _ => true)) := by
  have hempty := smallCall_proper 2 0 (-1) [1] (by decide) (by decide)
  have hzero := smallCall_proper 2 0 0 [1] (by decide) (by decide)
  have hown := smallCall_proper 1 2 (-1) [1, 2, 3] (by decide) (by decide)
  have hstop := smallCall_proper 2 2 (-1) [1, 2, 3] (by decide) (by decide)
  refine ⟨⟨hempty, ?_⟩, ⟨hzero, ?_⟩, ⟨hown, ?_⟩, ⟨hstop, ?_⟩⟩
  · exact SendLoop.hangs_of_emptyWindow hempty (by decide) (by decide) (by decide) (by decide)
  · exact SendLoop.hangs_of_zero hzero (by decide)
  · exact SendLoop.hangs_of_ownSlots hown (by decide) (by decide) (by decide)
  · exact SendLoop.hangs_of_stop hstop (by decide) (by decide) (by decide) rfl

end ShmIpc.Stream
