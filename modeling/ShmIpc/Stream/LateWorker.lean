import ShmIpc.Stream.EndToEnd

/-!
`Send` with its acquisitions taken apart: a slot is claimed, the message is copied into the
request area, and only then is it published. The worker of an exchange that was given up may
still be at the request area of a slot that is claimed again, and its handler then reads what
stands there. A call that begins with no such worker about is delivered exactly once. A call
that takes over such a slot can be told success for bytes it never sent.
-/

namespace ShmIpc.Stream
open Library

/-- `filling` is the slot that `Send` has claimed and not yet published, with the copies still
to be made. `late` has the workers of exchanges given up whose slot was claimed again: the
type each has read, and its request as the area shows it now. -/
structure LateSend where
  send : SendState
  filling : Option (Nat × List (Nat × List UInt8))
  late : Nat → Option (MsgType × List UInt8)

inductive LateAction
  | claim (slot : Nat) (running : Bool)
  | copy
  | send (action : SendAction)
  | lateWork (slot : Nat) (env : Go.Surroundings)

namespace SendState

/-- `Send` is at an `acquireSlot`. -/
def acquiring (P : SendCall) (s : SendState) : Bool :=
  match s.phase with
  | .start => true
  | .fill => s.canFill P
  | _ => false

/-- The copies into the request area of the slot. A chunk takes two. -/
def copies (P : SendCall) (s : SendState) : List (Nat × List UInt8) :=
  match s.phase with
  | .start => if P.maxReqSize ≤ chunkHeaderSize then [] else [(0, P.startMsg)]
  | _ =>
    let msg := P.chunkMsg s.chunkIndex s.remaining
    [(0, msg.take chunkHeaderSize), (chunkHeaderSize, msg.drop chunkHeaderSize)]

end SendState

namespace LateSend

/-- `tryClaimSlot`. The worker is `running` if it has claimed the request that was given up. -/
def claim (P : SendCall) (s : LateSend) (slot : Nat) (running : Bool) : Option LateSend :=
  if s.filling.isSome || !s.send.acquiring P || !s.send.acquirable P slot then none
  else
    let late :=
      match s.send.slots slot, s.late slot, running with
      | .abandoned m req, none, true => Function.update s.late slot (some (m, req))
      | _, _, _ => s.late
    some ⟨s.send.setSlot slot .idle, some (slot, s.send.copies P), late⟩

def copy (s : LateSend) : Option LateSend :=
  match s.filling with
  | some (slot, (offset, bytes) :: copies) =>
    let late := (s.late slot).map fun (m, req) => (m, copyAt req offset bytes)
    some { s with filling := some (slot, copies), late := Function.update s.late slot late }
  | _ => none

/-- The steps of `SendState`. An acquisition is what is left of it, the publication. -/
def sendStep (P : SendCall) (s : LateSend) : SendAction → Option LateSend
  | .acquire slot =>
    if s.filling = some (slot, []) then
      (s.send.acquire P slot).map fun send => { s with send := send, filling := none }
    else none
  | .work slot env =>
    if (s.late slot).isSome then none
    else (s.send.work slot env).map fun send => { s with send := send }
  | .other env m req => (s.send.other P env m req).map fun send => { s with send := send }
  | a =>
    if s.filling.isSome then none
    else (s.send.step P a).map fun send => { s with send := send }

/-- The handler of a late worker runs. Its reply finds the slot taken and is dropped. -/
def lateWork (s : LateSend) (slot : Nat) (env : Go.Surroundings) : Option LateSend :=
  (s.late slot).map fun (m, req) =>
    { s with send := (s.send.handle env m req).1, late := Function.update s.late slot none }

def step (P : SendCall) (s : LateSend) : LateAction → Option LateSend
  | .claim slot running => s.claim P slot running
  | .copy => s.copy
  | .send a => s.sendStep P a
  | .lateWork slot env => s.lateWork slot env

/-- `Send` is called, and no request of an exchange that was given up is still with a worker. -/
structure Initial (P : SendCall) (s : LateSend) : Prop where
  send : SendState.Initial P s.send
  filling : s.filling = none
  late : ∀ slot, s.late slot = none

def nextCall (P : SendCall) (s : LateSend) : LateSend :=
  { s with send := { s.send with
      phase := .enter, remaining := P.data.length, chunkIndex := 0, rr := 0, pendingSlots := []
      delivered := [] } }

end LateSend

namespace LateAction

def isTimeout : LateAction → Bool
  | .send a => a.isTimeout
  | _ => false

def isSystem : LateAction → Bool
  | .send a => a.isSystem
  | _ => true

end LateAction

namespace SendAction

/-- Steps of the guest, which may come while `Send` fills a slot. -/
def isGuest : SendAction → Bool
  | .work _ _ | .other _ _ _ => true
  | _ => false

end SendAction

namespace SendState

variable {P : SendCall} {s s' : SendState}

theorem length_copies_le (P : SendCall) (s : SendState) : (s.copies P).length ≤ 2 := by
  unfold copies
  split
  · split
    · exact Nat.zero_le 2
    · exact Nat.le_succ 1
  · exact Nat.le_refl 2

theorem acquire_isSome_iff (slot : Nat) :
    (s.acquire P slot).isSome = true ↔ s.acquiring P = true ∧ s.acquirable P slot = true := by
  unfold acquire acquiring
  cases hslot : s.acquirable P slot with
  | false => simp
  | true =>
    cases hphase : s.phase with
    | start =>
      simp only [Bool.not_true, Bool.false_eq_true, if_false, and_self, iff_true]
      split <;> rfl
    | fill =>
      simp only [Bool.not_true, Bool.false_eq_true, if_false, and_true]
      cases s.canFill P <;> simp
    | enter | startWait | abortWait | drain | failing | returned => simp

/-- During a call the slots that can be acquired are not those of an earlier exchange. -/
theorem idle_of_acquirable (h : Inv P s) (hacquiring : s.acquiring P = true) {slot : Nat}
    (hslot : s.acquirable P slot = true) : s.slots slot = .idle := by
  rw [Inv] at h
  unfold acquiring at hacquiring
  cases hphase : s.phase with
  | start =>
    rw [hphase] at h
    exact h.idle slot
  | fill =>
    rw [hphase] at h
    exact h.idle slot (h.notMem_of_acquirable slot hslot)
  | enter | startWait | abortWait | drain | failing | returned =>
    rw [hphase] at hacquiring
    cases hacquiring

theorem stepsLeft_pos_of_acquiring (hacquiring : s.acquiring P = true) : 0 < s.stepsLeft P := by
  unfold acquiring at hacquiring
  unfold stepsLeft
  cases hphase : s.phase with
  | start | fill => exact Nat.succ_pos _
  | enter | startWait | abortWait | drain | failing | returned =>
    rw [hphase] at hacquiring
    cases hacquiring

theorem acquirable_of_guest {a : SendAction} (ha : a.isGuest = true)
    (hstep : s.step P a = some s') (hacquiring : s.acquiring P = true) {slot : Nat}
    (hslot : s.acquirable P slot = true) (hidle : s.slots slot = .idle) :
    s'.acquiring P = true ∧ s'.acquirable P slot = true := by
  cases a with
  | acquire | acquireTimeout | proceed | timeout => cases ha
  | other env m req =>
    simp only [step, other] at hstep
    split at hstep
    · cases hstep
    · split at hstep
      · cases hstep
      · cases hstep
        exact ⟨hacquiring, hslot⟩
  | work worked env =>
    have hkept (use : SlotUse) (hne : slot ≠ worked) :
        (s.setSlot worked use).acquirable P slot = true := by
      simp only [acquirable, setSlot, Function.update_of_ne hne]
      exact hslot
    have hne : slot ≠ worked := by
      rintro rfl
      simp [step, work, hidle] at hstep
    simp only [step, work] at hstep
    split at hstep
    · cases hstep
      exact ⟨hacquiring, hkept _ hne⟩
    · cases hstep
      exact ⟨hacquiring, hkept _ hne⟩
    · cases hstep

end SendState

namespace LateSend

variable {P : SendCall} {s s' : LateSend}

structure Inv (P : SendCall) (s : LateSend) : Prop where
  send : SendState.Inv P s.send
  filling : ∀ slot copies, s.filling = some (slot, copies) →
    s.send.acquiring P = true ∧ s.send.acquirable P slot = true ∧ copies.length ≤ 2
  late : ∀ slot, s.late slot = none

/-- What a step is while no late worker is about. -/
inductive Goes (P : SendCall) (s : LateSend) : LateAction → LateSend → Prop
  | claim (slot : Nat) (running : Bool) (hfilling : s.filling = none)
      (hacquiring : s.send.acquiring P = true) (hslot : s.send.acquirable P slot = true) :
      Goes P s (.claim slot running) { s with filling := some (slot, s.send.copies P) }
  | copy (slot : Nat) (write : Nat × List UInt8) (copies : List (Nat × List UInt8))
      (hfilling : s.filling = some (slot, write :: copies)) :
      Goes P s .copy { s with filling := some (slot, copies) }
  | publish (slot : Nat) (send : SendState) (hfilling : s.filling = some (slot, []))
      (hstep : s.send.step P (.acquire slot) = some send) :
      Goes P s (.send (.acquire slot)) { s with send := send, filling := none }
  | send (a : SendAction) (send : SendState) (hfree : a.isGuest = true ∨ s.filling = none)
      (hstep : s.send.step P a = some send) : Goes P s (.send a) { s with send := send }

theorem goes_of_claim (h : Inv P s) {slot : Nat} {running : Bool}
    (hstep : s.claim P slot running = some s') : Goes P s (.claim slot running) s' := by
  unfold claim at hstep
  split at hstep
  · cases hstep
  case isFalse hfree =>
    simp only [Bool.or_eq_true, Bool.not_eq_true', not_or, Bool.not_eq_true,
      Bool.not_eq_false] at hfree
    obtain ⟨⟨hfilling, hacquiring⟩, hslot⟩ := hfree
    have hidle := SendState.idle_of_acquirable h.send hacquiring hslot
    have hsame : s.send.setSlot slot .idle = s.send := by
      rw [SendState.setSlot, ← hidle, Function.update_eq_self]
    simp only [hidle, hsame, Option.some.injEq] at hstep
    subst hstep
    exact .claim slot running (by simpa using hfilling) hacquiring hslot

theorem goes_of_copy (h : Inv P s) (hstep : s.copy = some s') : Goes P s .copy s' := by
  unfold copy at hstep
  split at hstep
  case h_1 slot offset bytes copies hfilling =>
    have hsame : Function.update s.late slot none = s.late := by
      rw [← h.late slot, Function.update_eq_self]
    simp only [h.late slot, Option.map_none, hsame, Option.some.injEq] at hstep
    subst hstep
    exact .copy slot (offset, bytes) copies hfilling
  case h_2 => cases hstep

theorem goes_of_send {a : SendAction} (hstep : s.sendStep P a = some s') :
    Goes P s (.send a) s' := by
  cases a with
  | acquire slot =>
    simp only [sendStep] at hstep
    split at hstep
    case isTrue hfilling =>
      obtain ⟨send, hsend, rfl⟩ := Option.map_eq_some_iff.mp hstep
      exact .publish slot send hfilling hsend
    case isFalse => cases hstep
  | work slot env =>
    simp only [sendStep] at hstep
    split at hstep
    case isTrue => cases hstep
    case isFalse =>
      obtain ⟨send, hsend, rfl⟩ := Option.map_eq_some_iff.mp hstep
      exact .send (.work slot env) send (Or.inl rfl) hsend
  | other env m req =>
    obtain ⟨send, hsend, rfl⟩ := Option.map_eq_some_iff.mp hstep
    exact .send (.other env m req) send (Or.inl rfl) hsend
  | acquireTimeout | proceed | timeout =>
    simp only [sendStep] at hstep
    split at hstep
    case isTrue => cases hstep
    case isFalse hfilling =>
      obtain ⟨send, hsend, rfl⟩ := Option.map_eq_some_iff.mp hstep
      exact .send _ send (Or.inr (by simpa using hfilling)) hsend

theorem goes_of_step (h : Inv P s) {a : LateAction} (hstep : s.step P a = some s') :
    Goes P s a s' := by
  cases a with
  | claim slot running => exact goes_of_claim h hstep
  | copy => exact goes_of_copy h hstep
  | send a => exact goes_of_send hstep
  | lateWork slot env =>
    simp only [step, lateWork, h.late slot] at hstep
    cases hstep

theorem inv_step (hP : P.Valid) {a : LateAction} (h : Inv P s) (hstep : s.step P a = some s') :
    Inv P s' := by
  cases goes_of_step h hstep with
  | claim slot running hfilling hacquiring hslot =>
    refine ⟨h.send, ?_, h.late⟩
    rintro _ _ ⟨⟩
    exact ⟨hacquiring, hslot, SendState.length_copies_le P s.send⟩
  | copy slot write copies hfilling =>
    obtain ⟨hacquiring, hslot, hlen⟩ := h.filling slot _ hfilling
    refine ⟨h.send, ?_, h.late⟩
    rintro _ _ ⟨⟩
    exact ⟨hacquiring, hslot, Nat.le_of_succ_le hlen⟩
  | publish slot send hfilling hsend =>
    exact ⟨SendState.inv_step hP _ _ send h.send hsend, by rintro _ _ ⟨⟩, h.late⟩
  | send a send hfree hsend =>
    refine ⟨SendState.inv_step hP _ a send h.send hsend, ?_, h.late⟩
    intro slot copies hfilling
    obtain ⟨hacquiring, hslot, hlen⟩ := h.filling slot copies hfilling
    cases hfree with
    | inl hguest =>
      obtain ⟨hacquiring', hslot'⟩ := SendState.acquirable_of_guest hguest hsend hacquiring hslot
        (SendState.idle_of_acquirable h.send hacquiring hslot)
      exact ⟨hacquiring', hslot', hlen⟩
    | inr hnone => cases hnone.symm.trans hfilling

/-- The steps of an acquisition that have been taken: it is four at most. -/
def taken (s : LateSend) : Nat :=
  match s.filling with
  | none => 0
  | some (_, copies) => 3 - copies.length

def stepsLeft (P : SendCall) (s : LateSend) : Nat := 4 * s.send.stepsLeft P - s.taken

theorem taken_le (s : LateSend) : s.taken ≤ 3 := by
  unfold taken
  split
  · exact Nat.zero_le 3
  · exact Nat.sub_le 3 _

theorem stepsLeft_send (s : LateSend) (send : SendState) (a : SendAction)
    (hle : send.stepsLeft P + (if a.isSystem then 1 else 0) ≤ s.send.stepsLeft P) :
    ({ s with send := send } : LateSend).stepsLeft P + (if a.isSystem then 1 else 0) ≤
      s.stepsLeft P := by
  have htaken : ({ s with send := send } : LateSend).taken = s.taken := rfl
  have hbound := taken_le s
  simp only [stepsLeft, htaken]
  cases hsystem : a.isSystem with
  | false =>
    simp only [hsystem, Bool.false_eq_true, if_false] at hle ⊢
    omega
  | true =>
    simp only [hsystem, if_true] at hle ⊢
    omega

theorem calm_step (hP : P.Valid) (hchunks : P.totalChunks ≤ Go.MaxStreamChunks) (s : LateSend)
    (a : LateAction) (s' : LateSend) (h : Inv P s ∧ SendState.Calm s.send)
    (ha : a.isTimeout = false) (hstep : s.step P a = some s') :
    (Inv P s' ∧ SendState.Calm s'.send) ∧
      s'.stepsLeft P + (if a.isSystem then 1 else 0) ≤ s.stepsLeft P := by
  obtain ⟨hinv, hcalm⟩ := h
  have hinv' := inv_step hP hinv hstep
  cases goes_of_step hinv hstep with
  | claim slot running hfilling hacquiring hslot =>
    refine ⟨⟨hinv', hcalm⟩, ?_⟩
    have hpos := SendState.stepsLeft_pos_of_acquiring hacquiring
    have hlen := SendState.length_copies_le P s.send
    simp only [stepsLeft, taken, hfilling, LateAction.isSystem, if_true]
    omega
  | copy slot write copies hfilling =>
    refine ⟨⟨hinv', hcalm⟩, ?_⟩
    obtain ⟨hacquiring, -, hlen⟩ := hinv.filling slot _ hfilling
    have hpos := SendState.stepsLeft_pos_of_acquiring hacquiring
    simp only [stepsLeft, taken, hfilling, LateAction.isSystem, if_true, List.length_cons] at hlen ⊢
    omega
  | publish slot send hfilling hsend =>
    obtain ⟨⟨-, hcalm'⟩, hle⟩ := SendState.calm_step hP hchunks _ (.acquire slot) send
      ⟨hinv.send, hcalm⟩ rfl hsend
    refine ⟨⟨hinv', hcalm'⟩, ?_⟩
    simp only [stepsLeft, taken, hfilling, LateAction.isSystem, SendAction.isSystem, if_true,
      List.length_nil] at hle ⊢
    omega
  | send a send hfree hsend =>
    obtain ⟨⟨-, hcalm'⟩, hle⟩ := SendState.calm_step hP hchunks _ a send ⟨hinv.send, hcalm⟩ ha
      hsend
    exact ⟨⟨hinv', hcalm'⟩, stepsLeft_send s send a hle⟩

theorem calm_progress (hP : P.Valid) (h : Inv P s) (hcalm : SendState.Calm s.send)
    (hstuck : ∀ a : LateAction, a.isSystem = true → s.step P a = none) :
    s.send.phase = .returned .success := by
  have hfilling : s.filling = none := by
    by_contra hne
    obtain ⟨⟨slot, copies⟩, hsome⟩ := Option.ne_none_iff_exists'.mp hne
    obtain ⟨hacquiring, hslot, -⟩ := h.filling slot copies hsome
    cases copies with
    | cons write copies =>
      have hcopy := hstuck .copy rfl
      simp [step, copy, hsome] at hcopy
    | nil =>
      have hpublish := hstuck (.send (.acquire slot)) rfl
      have hsome' := (SendState.acquire_isSome_iff slot).mpr ⟨hacquiring, hslot⟩
      simp only [step, sendStep, hsome, if_true, Option.map_eq_none_iff] at hpublish
      rw [hpublish] at hsome'
      cases hsome'
  apply SendState.calm_progress hP h.send hcalm
  intro a ha
  cases a with
  | acquire slot =>
    have hclaim := hstuck (.claim slot false) rfl
    by_contra hne
    obtain ⟨hacquiring, hslot⟩ := (SendState.acquire_isSome_iff slot).mp
      (Option.isSome_iff_ne_none.mpr hne)
    simp [step, claim, hfilling, hacquiring, hslot] at hclaim
  | proceed =>
    have hproceed := hstuck (.send .proceed) rfl
    simp only [step, sendStep, hfilling, Option.isSome_none, Bool.false_eq_true, if_false,
      Option.map_eq_none_iff] at hproceed
    exact hproceed
  | work slot env =>
    have hwork := hstuck (.send (.work slot env)) rfl
    simp only [step, sendStep, h.late slot, Option.isSome_none, Bool.false_eq_true, if_false,
      Option.map_eq_none_iff] at hwork
    exact hwork
  | acquireTimeout | timeout | other => cases ha

theorem inv_initial (h : Initial P s) : Inv P s := by
  refine ⟨SendState.inv_initial h.send, ?_, h.late⟩
  intro slot copies hsome
  rw [h.filling] at hsome
  cases hsome

end LateSend

/-- A stream sent by `StreamSender::Send` to the Go guest, with timeouts, other
streams and any order of the workers, when no worker still has a request of an
earlier exchange: success means exactly one callback, with the bytes sent and the
sender's tag. In a run without timeouts every result is success, the sender and
its workers take a bounded number of steps, and they have nothing left to do only
when `Send` has returned. -/
theorem send_delivers_once (P : SendCall) (hP : P.Valid) (s₀ : LateSend)
    (h₀ : LateSend.Initial P s₀) (acts : List LateAction) (s : LateSend)
    (hrun : exec (LateSend.step P) s₀ acts = some s) :
    (s.send.phase = .returned .success →
      (s.send.delivered.filter fun d => d.streamId = P.streamId) =
        [⟨P.streamId, P.appMsgType, P.data⟩]) ∧
    ((∀ a ∈ acts, a.isTimeout = false) → P.totalChunks ≤ 2 ^ 20 →
      (∀ result, s.send.phase = .returned result → result = .success) ∧
      acts.countP LateAction.isSystem ≤ 16 * P.totalChunks + 40 ∧
      ((∀ a : LateAction, a.isSystem = true → s.step P a = none) →
        s.send.phase = .returned .success)) := by
  have hinit := LateSend.inv_initial h₀
  constructor
  · intro hphase
    have hinv := exec_invariant (LateSend.Inv P) (fun _ => True)
      (fun s a s' h _ hs' => LateSend.inv_step hP h hs') acts s₀ s hinit (fun _ _ => trivial) hrun
    have hsend := hinv.send
    rw [SendState.Inv, hphase] at hsend
    exact hsend.mine
  · intro hcalm hchunks
    have hstart : s₀.stepsLeft P = 16 * P.totalChunks + 40 := by
      simp only [LateSend.stepsLeft, LateSend.taken, h₀.filling, SendState.stepsLeft, h₀.send.phase]
      omega
    have hcalm₀ : SendState.Calm s₀.send := by
      rw [SendState.Calm, h₀.send.phase]
      trivial
    have hstep := LateSend.calm_step hP hchunks
    obtain ⟨hinv, hend⟩ := exec_invariant (fun s => LateSend.Inv P s ∧ SendState.Calm s.send)
      (fun a : LateAction => a.isTimeout = false)
      (fun s a s' h ha hs' => (hstep s a s' h ha hs').1) acts s₀ s ⟨hinit, hcalm₀⟩ hcalm hrun
    have hcount := exec_countP_le (fun s => LateSend.Inv P s ∧ SendState.Calm s.send)
      (fun a : LateAction => a.isTimeout = false) (LateSend.stepsLeft P) LateAction.isSystem
      hstep acts s₀ s ⟨hinit, hcalm₀⟩ hcalm hrun
    refine ⟨?_, by omega, LateSend.calm_progress hP hinv hend⟩
    intro result hphase
    rw [SendState.Calm, hphase] at hend
    cases result with
    | success => rfl
    | failure error => exact hend.elim

/-- Two slots in rotation, with room for two bytes of payload. -/
def twoSlotSend (data : List UInt8) (streamId : Nat) : SendCall :=
  ⟨2, 26, 2, 0, data, streamId, 9⟩

theorem twoSlotSend_valid : (twoSlotSend [1, 2, 3] 7).Valid :=
  ⟨by decide, by decide, by decide, by decide, by decide, by decide, Or.inr (by decide),
    by decide, by decide⟩

def freshSend (data : List UInt8) : LateSend :=
  ⟨⟨.enter, data.length, 0, 0, [], fun _ => .idle, .new 0, []⟩, none, fun _ => none⟩

def wholeSend : List LateAction :=
  [.send .proceed, .claim 0 false, .copy, .send (.acquire 0), .send (.work 0 zeroGuest),
    .send .proceed, .claim 1 false, .copy, .copy, .send (.acquire 1), .claim 0 false, .copy, .copy,
    .send (.acquire 0), .send .proceed, .send (.work 0 zeroGuest), .send (.work 1 zeroGuest),
    .send .proceed, .send .proceed, .send .proceed]

theorem send_delivers_once_twoSlots :
    ∃ s, exec (LateSend.step (twoSlotSend [1, 2, 3] 7)) (freshSend [1, 2, 3]) wholeSend = some s ∧
      s.send.phase = .returned .success ∧
      (s.send.delivered.filter fun d => d.streamId = 7) = [⟨7, 9, [1, 2, 3]⟩] ∧
      ∀ result, s.send.phase = .returned result → result = .success := by
  have hrun : (exec (LateSend.step (twoSlotSend [1, 2, 3] 7)) (freshSend [1, 2, 3]) wholeSend).any
      (fun s => s.send.phase = .returned .success) = true := by decide
  obtain ⟨s, hexec, hphase⟩ := (Option.any_eq_true _ _).mp hrun
  have hstart : LateSend.Initial (twoSlotSend [1, 2, 3] 7) (freshSend [1, 2, 3]) :=
    ⟨⟨rfl, rfl, rfl, rfl, rfl, fun _ => rfl, ⟨0, [], rfl⟩, rfl, rfl⟩, rfl, fun _ => rfl⟩
  obtain ⟨hsuccess, hcalm⟩ := send_delivers_once _ twoSlotSend_valid _ hstart wholeSend s hexec
  have hdone := of_decide_eq_true hphase
  exact ⟨s, hexec, hdone, hsuccess hdone, (hcalm (by decide) (by decide)).1⟩

/-- A call whose only chunk is given up while the worker of slot 1 has it. -/
def abandonedSend : List LateAction :=
  [.send .proceed, .claim 0 false, .copy, .send (.acquire 0), .send (.work 0 zeroGuest),
    .send .proceed, .claim 1 false, .copy, .copy, .send (.acquire 1), .send .proceed,
    .send .timeout, .send .proceed]

/-- The next call takes slot 1 over, and the worker runs between the two copies. -/
def overtakingSend : List LateAction :=
  [.send .proceed, .claim 0 false, .copy, .send (.acquire 0), .send (.work 0 zeroGuest),
    .send .proceed, .claim 1 true, .copy, .lateWork 1 zeroGuest, .copy, .send (.acquire 1),
    .claim 0 false, .copy, .copy, .send (.acquire 0), .send .proceed, .send (.work 1 zeroGuest),
    .send (.work 0 zeroGuest), .send .proceed, .send .proceed, .send .proceed]

/-- `Send` of `[1, 2, 3]` returns success without a timeout, and the guest is given the payload
of the call before it in place of the first two bytes. -/
theorem send_succeeds_with_old_bytes :
    (twoSlotSend [1, 2, 3] 7).Valid ∧ ∃ before after,
      exec (LateSend.step (twoSlotSend [9, 9] 5)) (freshSend [9, 9]) abandonedSend = some before ∧
      before.send.phase = .returned (.failure .timeout) ∧
      before.send.guest.streams.lookup 7 = none ∧
      exec (LateSend.step (twoSlotSend [1, 2, 3] 7)) (before.nextCall (twoSlotSend [1, 2, 3] 7))
        overtakingSend = some after ∧
      (∀ a ∈ overtakingSend, a.isTimeout = false) ∧
      after.send.phase = .returned .success ∧
      after.send.delivered = [⟨7, 9, [9, 9, 3]⟩] := by
  have hrun : ((exec (LateSend.step (twoSlotSend [9, 9] 5)) (freshSend [9, 9]) abandonedSend).any
      fun before =>
        (before.send.phase = .returned (.failure .timeout) ∧
          before.send.guest.streams.lookup 7 = none) &&
        (exec (LateSend.step (twoSlotSend [1, 2, 3] 7)) (before.nextCall (twoSlotSend [1, 2, 3] 7))
          overtakingSend).any fun after =>
            after.send.phase = .returned .success ∧
              after.send.delivered = [⟨7, 9, [9, 9, 3]⟩]) = true := by decide
  obtain ⟨before, hbefore, hchecked⟩ := (Option.any_eq_true _ _).mp hrun
  obtain ⟨hended, hnext⟩ := Bool.and_eq_true_iff.mp hchecked
  obtain ⟨after, hafter, hsuccess⟩ := (Option.any_eq_true _ _).mp hnext
  obtain ⟨htimeout, hunused⟩ := of_decide_eq_true hended
  obtain ⟨hphase, hdelivered⟩ := of_decide_eq_true hsuccess
  exact ⟨twoSlotSend_valid, before, after, hbefore, htimeout, hunused, hafter, by decide, hphase, hdelivered⟩

end ShmIpc.Stream
