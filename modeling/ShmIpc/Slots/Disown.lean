import ShmIpc.Slots.Handles

/-!
A handle that has given its slot back, or disowned it, never touches it again.

One operation is described by what it writes, and by what it does to the hold of its
handle. The invariant of a run says that a handle which still reaches a slot holds a
tenure of it that has not ended; everything else is a fact about ledgers.
-/

namespace ShmIpc.Slots

open Library

/-- The send of a handle keeps its slot, and a timeout frees none. -/
def Sending.Sound : Sending → Prop
  | .host call pc => call.kind.keepsSlot = true ∧ pc ≠ .storeFree (.failed .timeout)
  | .guest _ _ => True

def HandleVar.Sound : HandleVar → Prop
  | .absent | .idle _ => True
  | .sending handle i send => handle.reaches = some i ∧ send.Sound

/-- What an operation writes, and how the hold on `slot` ends. -/
structure Effect (mem : Nat → Slot) (slot : Option Nat) (mem' : Nat → Slot) (ending : Ending) :
    Prop where
  frame : ∀ j, mem' j ≠ mem j → slot = some j
  freed : ∀ j, (mem' j).state = .free → (mem j).state ≠ .free → ending = .freed
  held : ending ≠ .none → slot ≠ none

/-- One operation, on a variable that reached `slot`. -/
structure OpSpec (mem : Nat → Slot) (slot : Option Nat) (op : HandleOp) (r : OpResult) :
    Prop where
  effect : Effect mem slot r.mem r.ending
  sound : r.var.Sound
  kept : r.ending = .none → op ≠ .destroy → r.var.reaches = slot
  gone : r.ending ≠ .none ∨ op = .destroy → r.var.reaches = none

section Stores

variable {mem : Nat → Slot} {i : Nat} {slot : Slot} {ending : Ending}

theorem Effect.refl (mem : Nat → Slot) (slot : Option Nat) : Effect mem slot mem .none where
  frame := fun _ h => absurd rfl h
  freed := fun _ h hne => absurd h hne
  held := fun h => absurd rfl h

theorem Effect.forfeit (mem : Nat → Slot) (i : Nat) :
    Effect mem (some i) mem .forfeited where
  frame := fun _ h => absurd rfl h
  freed := fun _ h hne => absurd h hne
  held := fun _ => Option.some_ne_none i

theorem Effect.update (h : slot.state = .free → (mem i).state ≠ .free → ending = .freed) :
    Effect mem (some i) (Function.update mem i slot) ending where
  frame := by
    intro j hj
    by_cases hji : j = i
    · rw [hji]
    · exact absurd (Function.update_of_ne hji _ _) hj
  freed := by
    intro j hfree hne
    by_cases hji : j = i
    · subst hji
      rw [Function.update_self] at hfree
      exact h hfree hne
    · rw [Function.update_of_ne hji] at hfree
      exact absurd hfree hne
  held := fun _ => Option.some_ne_none i

theorem effect_storeFree (mem : Nat → Slot) (i : Nat) :
    Effect mem (some i) (storeFree mem i) .freed :=
  Effect.update fun _ _ => rfl

end Stores

/-- An operation after which the variable has its slot as before. -/
theorem OpSpec.keeps {mem mem' : Nat → Slot} {slot : Option Nat} {op : HandleOp}
    {var : HandleVar} (hop : op ≠ .destroy) (heffect : Effect mem slot mem' .none)
    (hsound : var.Sound) (hreach : var.reaches = slot) :
    OpSpec mem slot op ⟨mem', var, .none⟩ where
  effect := heffect
  sound := hsound
  kept := fun _ _ => hreach
  gone := fun h => absurd (h.resolve_right hop) (fun hne => hne rfl)

theorem OpSpec.ending {mem mem' : Nat → Slot} {slot : Option Nat} {op : HandleOp}
    {var : HandleVar} {ending : Ending} (heffect : Effect mem slot mem' ending) (hsound : var.Sound)
    (hkept : ending = .none → slot = none) (hgone : var.reaches = none) :
    OpSpec mem slot op ⟨mem', var, ending⟩ where
  effect := heffect
  sound := hsound
  kept := fun h _ => hgone.trans (hkept h).symm
  gone := fun _ => hgone

section Handles

theorem HostHandle.reaches_disowned (h : HostHandle) :
    HostHandle.reaches { h with slotIdx := none } = none :=
  ite_self none

theorem Handle.reaches_disowned (handle : Handle) : handle.disowned.reaches = none := by
  cases handle with
  | zeroCopy h => exact h.reaches_disowned
  | held h => exact h.reaches_disowned
  | guest g => rfl

theorem Handle.reaches_of_slot {session : Option Nat} {handle : Handle} {i : Nat}
    (h : handle.slot session = some i) : handle.reaches = some i := by
  cases handle with
  | zeroCopy h' | held h' =>
    simp only [Handle.slot] at h
    split at h
    · exact h
    · cases h
  | guest g => exact h

theorem HostHandle.giveBack_effect (session : Option Nat) (mem : Nat → Slot) (h : HostHandle) :
    Effect mem h.reaches (h.giveBack session mem).1 (h.giveBack session mem).2 := by
  unfold HostHandle.giveBack
  cases h.reaches with
  | none => exact .refl mem none
  | some i =>
    simp only
    split
    · exact effect_storeFree mem i
    · exact .forfeit mem i

theorem HostHandle.giveBack_kept {session : Option Nat} {mem : Nat → Slot} {h : HostHandle}
    (hkept : (h.giveBack session mem).2 = .none) : h.reaches = none := by
  unfold HostHandle.giveBack at hkept
  cases hreach : h.reaches with
  | none => rfl
  | some i =>
    simp only [hreach] at hkept
    split at hkept <;> cases hkept

theorem GuestSlot.release_effect (mem : Nat → Slot) (g : GuestSlot) :
    Effect mem g.reaches (g.release mem).1 (g.release mem).2.2 := by
  unfold GuestSlot.release
  cases g.reaches with
  | none => exact .refl mem none
  | some i =>
    simp only
    split
    · exact effect_storeFree mem i
    · exact .forfeit mem i

theorem GuestSlot.release_kept {mem : Nat → Slot} {g : GuestSlot}
    (hkept : (g.release mem).2.2 = .none) : g.reaches = none := by
  unfold GuestSlot.release at hkept
  cases hreach : g.reaches with
  | none => rfl
  | some i =>
    simp only [hreach] at hkept
    split at hkept <;> cases hkept

theorem GuestSlot.reaches_release (mem : Nat → Slot) (g : GuestSlot) :
    (g.release mem).2.1.reaches = none := by
  have hnone : GuestSlot.reaches { g with slot := none } = none := ite_self none
  unfold GuestSlot.release
  split
  · exact hnone
  · split
    · exact hnone
    · exact hnone

end Handles

section Sends

theorem sendStep_free {layout : Layout} {now : Nat} {s : Slot} {call : HostCall} {pc : SendPc}
    (hfree : (sendStep layout now s call pc).1.state = .free) (hne : s.state ≠ .free) :
    ∃ result, pc = .storeFree result ∧ (sendStep layout now s call pc).2 = .leaves result := by
  cases pc with
  | storeFree result => exact ⟨result, rfl, rfl⟩
  | checkSize =>
    simp only [sendStep] at hfree
    split at hfree
    · split at hfree <;> exact absurd hfree hne
    · exact absurd hfree hne
  | checkType =>
    simp only [sendStep] at hfree
    split at hfree
    · exact absurd hfree hne
    · split at hfree <;> exact absurd hfree hne
  | checkSeq | waiting | copyResponse =>
    simp only [sendStep] at hfree
    split at hfree <;> exact absurd hfree hne
  | storeReqReady | park => cases hfree
  | storeReqSize | storeMsgType | storeMsgSeq | storeNextSeq | storeLease | raiseActiveWait
  | reraiseActiveWait | dropActiveWait | loadRespSize => exact absurd hfree hne

theorem handleStep_free {config : GuestConfig} {now : Nat} {s : Slot} {send : HandleSend}
    {pc : HandlePc} (hfree : (handleStep config now s send pc).1.state = .free) :
    s.state = .free := by
  cases pc with
  | storeReqReady => cases hfree
  | consume =>
    simp only [handleStep] at hfree
    split at hfree
    · cases hfree
    · exact hfree
  | checkSize | waiting | checkSeq =>
    simp only [handleStep] at hfree
    split at hfree <;> exact hfree
  | storeReqSize | storeMsgType | storeMsgSeq | storeNextSeq | raiseActiveWait | bumpGen
  | storeLease | dropActiveWait | loadRespSize | loadRespType => exact hfree

theorem sendStep_running {layout : Layout} {now : Nat} {s : Slot} {call : HostCall}
    {pc pc' : SendPc} (hkeeps : call.kind.keepsSlot = true)
    (h : (sendStep layout now s call pc).2 = .running pc') :
    pc' ≠ .storeFree (.failed .timeout) := by
  rintro rfl
  cases pc with
  | checkSize =>
    simp only [sendStep, hkeeps, if_true] at h
    split at h <;> cases h
  | storeNextSeq =>
    simp only [sendStep, SendProgress.running.injEq] at h
    split at h <;> cases h
  | storeReqReady | waiting | dropActiveWait | checkSeq | copyResponse =>
    simp only [sendStep] at h
    split at h <;> cases h
  | checkType =>
    simp only [sendStep] at h
    split at h
    · cases h
    · split at h <;> cases h
  | storeReqSize | storeMsgType | storeMsgSeq | storeLease | raiseActiveWait
  | reraiseActiveWait | park | loadRespSize | storeFree => cases h

variable {config : HandleConfig} {now : Nat} {mem : Nat → Slot} {handle : Handle} {i : Nat}
  {slot : Slot} {op : HandleOp}

theorem opSpec_hostReturn {call : HostCall} {pc : SendPc} {progress : SendProgress}
    (hop : op ≠ .destroy) (hreach : handle.reaches = some i)
    (hkeeps : call.kind.keepsSlot = true)
    (hfree : slot.state = .free → (mem i).state ≠ .free →
      ∃ result, pc = .storeFree result ∧ progress = .leaves result)
    (hrunning : ∀ pc', progress = .running pc' → pc' ≠ .storeFree (.failed .timeout)) :
    OpSpec mem (some i) op
      (hostReturn (Function.update mem i slot) handle i call pc progress) := by
  cases progress with
  | running pc' =>
    refine .keeps hop (.update fun hs hne => ?_) ⟨hreach, hkeeps, hrunning pc' rfl⟩ hreach
    obtain ⟨_, -, hleaves⟩ := hfree hs hne
    cases hleaves
  | inFlight | keeps =>
    refine .keeps hop (.update fun hs hne => ?_) trivial hreach
    obtain ⟨_, -, hleaves⟩ := hfree hs hne
    cases hleaves
  | leaves result =>
    refine ⟨.update fun hs hne => ?_, trivial, fun hnone _ => ?_,
      fun _ => handle.reaches_disowned⟩
    · obtain ⟨result', hpc, -⟩ := hfree hs hne
      subst hpc
      rfl
    · simp only [hostReturn] at hnone
      split at hnone <;> cases hnone

theorem opSpec_guestReturn {send : HandleSend} {progress : HandleProgress}
    (hop : op ≠ .destroy) (hreach : handle.reaches = some i)
    (hfree : slot.state = .free → (mem i).state = .free) :
    OpSpec mem (some i) op
      (guestReturn (Function.update mem i slot) handle i send progress) := by
  cases progress with
  | running pc =>
    exact .keeps hop (.update fun hs hne => absurd (hfree hs) hne) ⟨hreach, trivial⟩ hreach
  | replied | failed =>
    exact .keeps hop (.update fun hs hne => absurd (hfree hs) hne) trivial hreach
  | forfeited =>
    refine ⟨.update fun hs hne => absurd (hfree hs) hne, trivial, ?_,
      fun _ => handle.reaches_disowned⟩
    intro hnone _
    cases hnone

theorem opSpec_advance {send : Sending} (hreach : handle.reaches = some i)
    (hsound : send.Sound) :
    OpSpec mem (some i) (.advance now) (send.advance config now mem handle i) := by
  have hop : HandleOp.advance now ≠ .destroy := by
    intro h
    cases h
  cases send with
  | host call pc =>
    exact opSpec_hostReturn hop hreach hsound.1 sendStep_free
      (fun pc' => sendStep_running hsound.1)
  | guest send pc => exact opSpec_guestReturn hop hreach handleStep_free

theorem Sending.expire_sound {state : SlotState} {send send' : Sending} (hsound : send.Sound)
    (h : send.expire state = some send') : send'.Sound := by
  unfold Sending.expire at h
  split at h
  · split at h
    · cases h
    · cases h
      exact ⟨hsound.1, by intro hpc; cases hpc⟩
  · split at h
    · cases h
    · cases h
      trivial
  · cases h

end Sends

section Operations

variable {config : HandleConfig} {session : Option Nat} {mem : Nat → Slot}

theorem Handle.sending_sound (session : Option Nat) (handle : Handle) (size : Int)
    (msgType : MsgType) :
    (handle.sending session size msgType).Sound ∧
      (handle.sending session size msgType).reaches = handle.reaches := by
  unfold Handle.sending
  cases hslot : handle.slot session with
  | none => exact ⟨trivial, rfl⟩
  | some i =>
    refine ⟨⟨Handle.reaches_of_slot hslot, ?_⟩, rfl⟩
    cases handle with
    | zeroCopy | held => exact ⟨rfl, by intro hpc; cases hpc⟩
    | guest => trivial

theorem HostHandle.sendingFlatBuffer_sound (session : Option Nat) (mem : Nat → Slot)
    (h : HostHandle) (size : Int) :
    (h.sendingFlatBuffer session mem size).Sound ∧
      (h.sendingFlatBuffer session mem size).reaches = h.reaches := by
  unfold HostHandle.sendingFlatBuffer
  cases hslot : (Handle.zeroCopy h).slot session with
  | none => exact ⟨trivial, rfl⟩
  | some i =>
    simp only
    split
    · exact ⟨trivial, rfl⟩
    · exact ⟨⟨Handle.reaches_of_slot hslot, rfl, by intro hpc; cases hpc⟩, rfl⟩

theorem opStep_spec {var : HandleVar} {op : HandleOp} {r : OpResult} (hsound : var.Sound)
    (h : opStep config session mem var op = some r) : OpSpec mem var.reaches op r := by
  unfold opStep at h
  split at h
  · cases h
    exact .keeps (by intro hop; cases hop) (.refl mem _) trivial rfl
  case h_2 handle size msgType =>
    cases h
    obtain ⟨hs, hreach⟩ := handle.sending_sound session size msgType
    exact .keeps (by intro hop; cases hop) (.refl mem _) hs hreach
  case h_3 h' size =>
    cases h
    obtain ⟨hs, hreach⟩ := h'.sendingFlatBuffer_sound session mem size
    exact .keeps (by intro hop; cases hop) (.refl mem _) hs hreach
  case h_4 h' =>
    cases h
    exact .ending (h'.giveBack_effect session mem) trivial HostHandle.giveBack_kept
      h'.reaches_disowned
  case h_5 g =>
    cases h
    exact .ending (g.release_effect mem) trivial GuestSlot.release_kept (g.reaches_release mem)
  case h_6 h' | h_7 h' =>
    cases h
    exact .ending (h'.giveBack_effect session mem) trivial HostHandle.giveBack_kept rfl
  case h_8 g =>
    cases h
    exact ⟨.refl mem _, trivial, fun _ hop => absurd rfl hop, fun _ => rfl⟩
  case h_9 handle i send now =>
    cases h
    have hreach : (HandleVar.sending handle i send).reaches = some i := hsound.1
    rw [hreach]
    exact opSpec_advance hsound.1 hsound.2
  case h_10 handle i send =>
    obtain ⟨send', hsend, rfl⟩ := Option.map_eq_some_iff.mp h
    exact .keeps (by intro hop; cases hop) (.refl mem _)
      ⟨hsound.1, Sending.expire_sound hsound.2 hsend⟩ rfl
  · cases h

end Operations

section Settling

variable {l : TenureLedger Nat} {v w a : Nat} {ending : Ending}

theorem Ending.granted_settle (ending : Ending) (v : Nat) (l : TenureLedger Nat) :
    (ending.settle v l).granted = l.granted := by
  cases ending with
  | none => rfl
  | freed | forfeited => exact TenureLedger.granted_finish l v _

theorem Ending.linear_settle (h : l.Linear) (hv : ending ≠ .none → ∃ a, l.Live v a) :
    (ending.settle v l).Linear := by
  cases ending with
  | none => exact h
  | freed | forfeited =>
    obtain ⟨a, hlive⟩ := hv (by intro hnone; cases hnone)
    exact h.finish hlive _

theorem Ending.live_settle (h : l.Linear) (hw : l.Live w a) (hwv : w ≠ v) :
    (ending.settle v l).Live w a := by
  cases ending with
  | none => exact hw
  | freed | forfeited => exact h.live_finish hw hwv _

theorem Ending.gone_settle (h : l.Gone a) : (ending.settle v l).Gone a := by
  cases ending with
  | none => exact h
  | freed | forfeited => exact h.finish v _

theorem Ending.mem_returned_settle (h : l.Gone a) (hv : ending ≠ .none → ∃ b, l.Live v b) :
    a ∈ (ending.settle v l).returned ↔ a ∈ l.returned := by
  cases ending with
  | none => exact Iff.rfl
  | freed | forfeited =>
    obtain ⟨b, hlive⟩ := hv (by intro hnone; cases hnone)
    exact h.mem_returned_finish hlive _

end Settling

/-- Every slot that a variable reaches is the slot of its tenure, which goes on. -/
def Covered (h : HandleLog) (vars : Nat → HandleVar) : Prop :=
  ∀ v i, (vars v).reaches = some i → ∃ a, h.ledger.Live v a ∧ h.slots[a]? = some i

structure Accounted (p : HandleSystem × HandleLog) : Prop where
  linear : p.2.ledger.Linear
  numbered : p.2.slots.length = p.2.ledger.granted
  sound : ∀ v, (p.1.vars v).Sound
  covered : Covered p.2 p.1.vars

section Runs

variable {config : HandleConfig} {p p' : HandleSystem × HandleLog} {h h' : HandleLog}
  {vars : Nat → HandleVar} {v : Nat} {var : HandleVar}

theorem Covered.update (hcov : Covered h vars)
    (hlive : ∀ w a, w ≠ v → h.ledger.Live w a → h'.ledger.Live w a)
    (hslots : ∀ (a : Nat) i, h.slots[a]? = some i → h'.slots[a]? = some i)
    (hvar : ∀ i, var.reaches = some i → ∃ a, h'.ledger.Live v a ∧ h'.slots[a]? = some i) :
    Covered h' (Function.update vars v var) := by
  intro w i hw
  by_cases hwv : w = v
  · subst hwv
    rw [Function.update_self] at hw
    exact hvar i hw
  · rw [Function.update_of_ne hwv] at hw
    obtain ⟨a, ha, hslot⟩ := hcov w i hw
    exact ⟨a, hlive w a hwv ha, hslots a i hslot⟩

theorem sound_update (hsound : ∀ w, (vars w).Sound) (hvar : var.Sound) (w : Nat) :
    (Function.update vars v var w).Sound := by
  by_cases hwv : w = v
  · subst hwv
    rw [Function.update_self]
    exact hvar
  · rw [Function.update_of_ne hwv]
    exact hsound w

theorem HandleKind.slot_of_reaches {kind : HandleKind} {session slot : Option Nat} {i : Nat}
    (h : (kind.handle session slot).reaches = some i) : slot = some i := by
  cases kind with
  | zeroCopy | held =>
    simp only [HandleKind.handle, Handle.reaches, HostHandle.reaches] at h
    split at h
    · exact h
    · cases h
  | guest => exact h

theorem Accounted.live (h : Accounted p) {mem' : Nat → Slot} {ending : Ending}
    (heffect : Effect p.1.mem (p.1.vars v).reaches mem' ending) (hne : ending ≠ .none) :
    ∃ a, p.2.ledger.Live v a := by
  obtain ⟨i, hi⟩ := Option.ne_none_iff_exists'.mp (heffect.held hne)
  obtain ⟨a, ha, -⟩ := h.covered v i hi
  exact ⟨a, ha⟩

theorem run_op {op : HandleOp} (h : config.run p (.op v op) = some p') :
    ∃ r, opStep config p.1.session p.1.mem (p.1.vars v) op = some r ∧
      p' = ({ p.1 with mem := r.mem }.setVar v r.var,
        { p.2 with ledger := op.settle r.ending v p.2.ledger }) := by
  obtain ⟨hstep, hlog⟩ := recorded_eq_some h
  obtain ⟨r, hr, hs⟩ := Option.map_eq_some_iff.mp hstep
  refine ⟨r, hr, Prod.ext hs.symm ?_⟩
  simp only [hlog, recordHandles, recordOp, hr]

theorem Accounted.op {op : HandleOp} (h : Accounted p)
    (hrun : config.run p (.op v op) = some p') : Accounted p' := by
  obtain ⟨r, hr, rfl⟩ := run_op hrun
  have hspec := opStep_spec (h.sound v) hr
  have hlinear := Ending.linear_settle h.linear (h.live hspec.effect)
  have hnumbered := h.numbered.trans (r.ending.granted_settle v p.2.ledger).symm
  have hother : ∀ w a, w ≠ v → p.2.ledger.Live w a →
      (r.ending.settle v p.2.ledger).Live w a :=
    fun w a hwv hw => Ending.live_settle h.linear hw hwv
  by_cases hop : op = .destroy
  · rw [HandleOp.settle, if_pos hop]
    refine ⟨hlinear.drop v, hnumbered, sound_update h.sound hspec.sound,
      h.covered.update (fun w a hwv hw => (hother w a hwv hw).drop hwv) (fun _ _ hi => hi) ?_⟩
    intro i hi
    rw [hspec.gone (Or.inr hop)] at hi
    cases hi
  · rw [HandleOp.settle, if_neg hop]
    refine ⟨hlinear, hnumbered, sound_update h.sound hspec.sound,
      h.covered.update hother (fun _ _ hi => hi) ?_⟩
    intro i hi
    by_cases hending : r.ending = .none
    · rw [hspec.kept hending hop] at hi
      rw [hending]
      exact h.covered v i hi
    · rw [hspec.gone (Or.inl hending)] at hi
      cases hi

theorem HandleVar.moveOut_eq_some {r : Handle × HandleVar} (h : var.moveOut = some r) :
    var = .idle r.1 ∧ r.2.Sound ∧ r.2.reaches = none := by
  unfold HandleVar.moveOut at h
  split at h
  · cases h
    exact ⟨rfl, trivial, rfl⟩
  · cases h
    exact ⟨rfl, trivial, rfl⟩
  · cases h

theorem Covered.transfer {l : TenureLedger Nat} {dst src : Nat} {handle : Handle}
    (hcov : Covered h vars) (hne : dst ≠ src) (hsrc : vars src = .idle handle)
    (hvar : var.reaches = none)
    (hlive : ∀ w a, w ≠ dst → h.ledger.Live w a → l.Live w a) :
    Covered { h with ledger := l.transfer dst src }
      (Function.update (Function.update vars dst (.idle handle)) src var) := by
  intro w i hw
  by_cases hws : w = src
  · rw [hws, Function.update_self, hvar] at hw
    cases hw
  · rw [Function.update_of_ne hws] at hw
    by_cases hwd : w = dst
    · subst hwd
      rw [Function.update_self] at hw
      obtain ⟨a, ha, hslot⟩ := hcov src i (hsrc ▸ hw)
      exact ⟨a, (hlive src a hne.symm ha).transfer_src hne, hslot⟩
    · rw [Function.update_of_ne hwd] at hw
      obtain ⟨a, ha, hslot⟩ := hcov w i hw
      exact ⟨a, (hlive w a hwd ha).transfer_other hwd hws, hslot⟩

/-- A move assignment ends the hold of its target before it overwrites it. -/
structure AssignSpec (s : HandleSystem) (dst src : Nat) (r : HandleSystem × Ending) : Prop where
  effect : Effect s.mem (s.vars dst).reaches r.1.mem r.2
  kept : r.2 = .none → (s.vars dst).reaches = none
  moved : ∃ handle var, s.vars src = .idle handle ∧ var.Sound ∧ var.reaches = none ∧
    r.1.vars = Function.update (Function.update s.vars dst (.idle handle)) src var

theorem HandleSystem.assign_spec {s : HandleSystem} {dst src : Nat}
    {r : HandleSystem × Ending} (h : s.assign dst src = some r) : AssignSpec s dst src r := by
  unfold HandleSystem.assign at h
  split at h
  case h_1 old new hdst hsrc | h_2 old new hdst hsrc =>
    cases h
    refine ⟨?_, ?_, _, _, hsrc, ?_, ?_, rfl⟩
    · rw [hdst]
      exact old.giveBack_effect s.session s.mem
    · rw [hdst]
      exact HostHandle.giveBack_kept
    · trivial
    · rfl
  · cases h

theorem run_moveAssign {dst src : Nat} (hne : dst ≠ src)
    (h : config.run p (.moveAssign dst src) = some p') :
    ∃ ending, AssignSpec p.1 dst src (p'.1, ending) ∧
      p'.2 = { p.2 with ledger := (ending.settle dst p.2.ledger).transfer dst src } := by
  obtain ⟨hstep, hlog⟩ := recorded_eq_some h
  simp only [HandleSystem.step, if_neg hne] at hstep
  obtain ⟨r, hr, hs⟩ := Option.map_eq_some_iff.mp hstep
  refine ⟨r.2, ?_, ?_⟩
  · rw [← hs]
    exact HandleSystem.assign_spec hr
  · simp only [hlog, recordHandles, if_neg hne, hr]

theorem Accounted.moveAssign {dst src : Nat} (h : Accounted p) (hne : dst ≠ src)
    (hrun : config.run p (.moveAssign dst src) = some p') : Accounted p' := by
  obtain ⟨ending, hspec, hlog⟩ := run_moveAssign hne hrun
  obtain ⟨handle, var, hsrc, hsound, hreach, hvars⟩ := hspec.moved
  refine ⟨?_, ?_, ?_, ?_⟩
  · rw [hlog]
    exact (Ending.linear_settle h.linear (h.live hspec.effect)).transfer dst src
  · rw [hlog]
    exact h.numbered.trans (ending.granted_settle dst p.2.ledger).symm
  · rw [hvars]
    exact sound_update (sound_update h.sound trivial) hsound
  · rw [hvars, hlog]
    exact h.covered.transfer hne hsrc hreach
      (fun w a hwd hw => Ending.live_settle h.linear hw hwd)

theorem run_moveConstruct {dst src : Nat}
    (h : config.run p (.moveConstruct dst src) = some p') :
    dst ≠ src ∧ ∃ handle var, p.1.vars src = .idle handle ∧ var.Sound ∧ var.reaches = none ∧
      p' = ((p.1.setVar dst (.idle handle)).setVar src var,
        { p.2 with ledger := p.2.ledger.transfer dst src }) := by
  obtain ⟨hstep, hlog⟩ := recorded_eq_some h
  simp only [HandleSystem.step] at hstep
  split at hstep
  case isTrue hcan =>
    obtain ⟨r, hr, hs⟩ := Option.map_eq_some_iff.mp hstep
    obtain ⟨hsrc, hsound, hreach⟩ := HandleVar.moveOut_eq_some hr
    exact ⟨hcan.2, r.1, r.2, hsrc, hsound, hreach, Prod.ext hs.symm hlog⟩
  · cases hstep

theorem Accounted.acquire {kind : HandleKind} {slot : Option Nat} (h : Accounted p)
    (hrun : config.run p (.acquire v kind slot) = some p') : Accounted p' := by
  obtain ⟨hstep, hlog⟩ := recorded_eq_some hrun
  simp only [HandleSystem.step] at hstep
  split at hstep
  · rw [Option.some.injEq] at hstep
    have hvars : p'.1.vars = Function.update p.1.vars v (.idle (kind.handle p.1.session slot)) :=
      hstep ▸ rfl
    cases slot with
    | none =>
      refine ⟨hlog ▸ h.linear.drop v, hlog ▸ h.numbered, ?_, ?_⟩
      · rw [hvars]
        exact sound_update h.sound trivial
      · rw [hvars, hlog]
        refine h.covered.update (fun w a hwv hw => hw.drop hwv) (fun _ _ hi => hi) ?_
        intro i hi
        cases HandleKind.slot_of_reaches hi
    | some j =>
      refine ⟨hlog ▸ h.linear.grant v, ?_, ?_, ?_⟩
      · simp only [hlog, recordHandles, List.length_append, List.length_singleton,
          TenureLedger.grant, h.numbered]
      · rw [hvars]
        exact sound_update h.sound trivial
      · rw [hvars, hlog]
        refine h.covered.update (fun w a hwv hw => hw.grant hwv) ?_ ?_
        · intro a i hi
          have hlt : a < p.2.slots.length := List.getElem?_eq_some_iff.mp hi |>.1
          exact (List.getElem?_append_left hlt).trans hi
        · intro i hi
          refine ⟨_, h.linear.live_grant v, ?_⟩
          rw [← h.numbered]
          exact List.getElem?_concat_length.trans (HandleKind.slot_of_reaches hi)
  · cases hstep

theorem Accounted.of_eq (h : Accounted p) (hvars : p'.1.vars = p.1.vars) (hlog : p'.2 = p.2) :
    Accounted p' := by
  refine ⟨?_, ?_, ?_, ?_⟩
  · exact hlog ▸ h.linear
  · exact hlog ▸ h.numbered
  · exact hvars ▸ h.sound
  · rw [hvars, hlog]
    exact h.covered

theorem run_moveAssign_self (h : config.run p (.moveAssign v v) = some p') : p' = p := by
  obtain ⟨hstep, hlog⟩ := recorded_eq_some h
  simp only [HandleSystem.step, recordHandles, if_true, Option.some.injEq] at hstep hlog
  exact Prod.ext hstep.symm hlog

theorem run_declare (h : config.run p (.declare v) = some p') :
    p' = (p.1.setVar v (.idle (.held .movedFrom)),
      { p.2 with ledger := p.2.ledger.drop v }) := by
  obtain ⟨hstep, hlog⟩ := recorded_eq_some h
  simp only [HandleSystem.step] at hstep
  split at hstep
  · rw [Option.some.injEq] at hstep
    exact Prod.ext hstep.symm hlog
  · cases hstep

theorem Accounted.step {a : HandleAction} (h : Accounted p) (hrun : config.run p a = some p') :
    Accounted p' := by
  cases a with
  | acquire v kind slot => exact h.acquire hrun
  | op v op => exact h.op hrun
  | declare v =>
    obtain rfl := run_declare hrun
    refine ⟨h.linear.drop v, h.numbered, sound_update h.sound trivial,
      h.covered.update (fun w a hwv hw => hw.drop hwv) (fun _ _ hi => hi) ?_⟩
    intro i hi
    cases hi
  | moveConstruct dst src =>
    obtain ⟨hne, handle, var, hsrc, hsound, hreach, rfl⟩ := run_moveConstruct hrun
    exact ⟨h.linear.transfer dst src, h.numbered,
      sound_update (sound_update h.sound trivial) hsound,
      h.covered.transfer hne hsrc hreach (fun _ _ _ hw => hw)⟩
  | moveAssign dst src =>
    by_cases hne : dst = src
    · subst hne
      rw [run_moveAssign_self hrun]
      exact h
    · exact h.moveAssign hne hrun
  | shutdown | elsewhere =>
    obtain ⟨hstep, hlog⟩ := recorded_eq_some hrun
    rw [HandleSystem.step, Option.some.injEq] at hstep
    exact h.of_eq (hstep ▸ rfl) hlog
  | init =>
    obtain ⟨hstep, hlog⟩ := recorded_eq_some hrun
    simp only [HandleSystem.step] at hstep
    split at hstep
    · rw [Option.some.injEq] at hstep
      exact h.of_eq (hstep ▸ rfl) hlog
    · cases hstep

theorem accounted_reachable {s : HandleSystem} (hs : s.Initial)
    (hr : Reachable config.run (fun _ _ => True) (s, .new) p) : Accounted p := by
  refine hr.invariant Accounted ⟨TenureLedger.linear_new, rfl, ?_, ?_⟩ (fun _ _ _ h _ => h.step)
  · intro v
    rw [hs v]
    trivial
  · intro v i hi
    rw [hs v] at hi
    cases hi

end Runs

def HandleAction.actor : HandleAction → Option Nat
  | .declare v | .acquire v _ _ | .op v _ | .moveConstruct v _ | .moveAssign v _ => some v
  | .shutdown | .init | .elsewhere _ _ => none

/-- What an action enters in the ledger for its variable. -/
inductive Entry (l : TenureLedger Nat) (v : Nat) (ending : Ending) : TenureLedger Nat → Prop
  | same : Entry l v ending (ending.settle v l)
  | drop : Entry l v ending ((ending.settle v l).drop v)
  | grant : Entry l v ending ((ending.settle v l).grant v)
  | transfer (src : Nat) : Entry l v ending ((ending.settle v l).transfer v src)

section Entries

variable {config : HandleConfig} {p p' : HandleSystem × HandleLog} {l l' : TenureLedger Nat}
  {v t : Nat} {ending : Ending} {a : HandleAction}

theorem Entry.gone (h : Entry l v ending l') (hgone : l.Gone t) : l'.Gone t := by
  have hsettle : (ending.settle v l).Gone t := Ending.gone_settle hgone
  cases h with
  | same => exact hsettle
  | drop => exact hsettle.drop v
  | grant => exact hsettle.grant v
  | transfer src => exact hsettle.transfer v src

theorem Entry.returned (h : Entry l v ending l') :
    l'.returned = (ending.settle v l).returned := by
  cases h <;> rfl

theorem run_acquire {kind : HandleKind} {slot : Option Nat}
    (h : config.run p (.acquire v kind slot) = some p') :
    p'.1.mem = p.1.mem ∧ Entry p.2.ledger v .none p'.2.ledger := by
  obtain ⟨hstep, hlog⟩ := recorded_eq_some h
  simp only [HandleSystem.step] at hstep
  split at hstep
  · rw [Option.some.injEq] at hstep
    refine ⟨hstep ▸ rfl, ?_⟩
    rw [hlog]
    cases slot with
    | none => exact Entry.drop
    | some i => exact Entry.grant
  · cases hstep

theorem Accounted.entry (h : Accounted p) (hrun : config.run p a = some p')
    (hactor : a.actor = some v) :
    ∃ ending, Effect p.1.mem (p.1.vars v).reaches p'.1.mem ending ∧
      Entry p.2.ledger v ending p'.2.ledger := by
  cases a with
  | declare w =>
    cases hactor
    obtain rfl := run_declare hrun
    exact ⟨.none, .refl _ _, .drop⟩
  | acquire w kind slot =>
    cases hactor
    obtain ⟨hmem, hentry⟩ := run_acquire hrun
    exact ⟨.none, hmem ▸ .refl _ _, hentry⟩
  | op w op =>
    cases hactor
    obtain ⟨r, hr, rfl⟩ := run_op hrun
    refine ⟨r.ending, (opStep_spec (h.sound v) hr).effect, ?_⟩
    simp only [HandleOp.settle]
    split
    · exact .drop
    · exact .same
  | moveConstruct dst src =>
    cases hactor
    obtain ⟨-, handle, var, -, -, -, rfl⟩ := run_moveConstruct hrun
    exact ⟨.none, .refl _ _, .transfer src⟩
  | moveAssign dst src =>
    cases hactor
    by_cases hne : v = src
    · subst hne
      rw [run_moveAssign_self hrun]
      exact ⟨.none, .refl _ _, .same⟩
    · obtain ⟨ending, hspec, hlog⟩ := run_moveAssign hne hrun
      exact ⟨ending, hspec.effect, hlog ▸ .transfer src⟩
  | shutdown | init | elsewhere => cases hactor

theorem run_of_actor_none (hrun : config.run p a = some p') (hactor : a.actor = none) :
    p'.2 = p.2 ∧ ((∀ i slot, a ≠ .elsewhere i slot) → p'.1.mem = p.1.mem) := by
  obtain ⟨hstep, hlog⟩ := recorded_eq_some hrun
  cases a with
  | declare | acquire | op | moveConstruct | moveAssign => cases hactor
  | elsewhere i slot => exact ⟨hlog, fun h => absurd rfl (h i slot)⟩
  | shutdown =>
    rw [HandleSystem.step, Option.some.injEq] at hstep
    exact ⟨hlog, fun _ => hstep ▸ rfl⟩
  | init =>
    simp only [HandleSystem.step] at hstep
    split at hstep
    · rw [Option.some.injEq] at hstep
      exact ⟨hlog, fun _ => hstep ▸ rfl⟩
    · cases hstep

theorem Accounted.gone_step (h : Accounted p) (hrun : config.run p a = some p')
    (hgone : p.2.ledger.Gone t) :
    p'.2.ledger.Gone t ∧ (t ∈ p'.2.ledger.returned ↔ t ∈ p.2.ledger.returned) := by
  cases hactor : a.actor with
  | none =>
    rw [(run_of_actor_none hrun hactor).1]
    exact ⟨hgone, Iff.rfl⟩
  | some v =>
    obtain ⟨ending, heffect, hentry⟩ := h.entry hrun hactor
    refine ⟨hentry.gone hgone, ?_⟩
    rw [hentry.returned]
    exact Ending.mem_returned_settle hgone (h.live heffect)

theorem Accounted.gone_reachable (h : Accounted p) (hgone : p.2.ledger.Gone t)
    (hr : Reachable config.run (fun _ _ => True) p p') :
    p'.2.ledger.Gone t ∧ (t ∈ p'.2.ledger.returned ↔ t ∈ p.2.ledger.returned) := by
  refine (hr.invariant (fun q => Accounted q ∧ q.2.ledger.Gone t ∧
    (t ∈ q.2.ledger.returned ↔ t ∈ p.2.ledger.returned)) ⟨h, hgone, Iff.rfl⟩ ?_).2
  rintro q b q' ⟨hq, hgone', hreturned⟩ - hrun
  obtain ⟨hgone'', hreturned'⟩ := hq.gone_step hrun hgone'
  exact ⟨hq.step hrun, hgone'', hreturned'.trans hreturned⟩

end Entries

/-- A release, a destruction, or the step with which a send returns and leaves the slot:
on a timeout, on a failed consume-claim, and in C++ on a faulty answer. -/
def HandleVar.Disowns (config : HandleConfig) (mem : Nat → Slot) : HandleVar → HandleOp → Prop
  | .idle _, .release | .idle _, .destroy => True
  | .sending _ i (.host call pc), .advance now =>
    ∃ result, (sendStep config.layout now (mem i) call pc).2 = .leaves result
  | .sending _ i (.guest send pc), .advance now =>
    ∃ error, (handleStep config.guest now (mem i) send pc).2 = .forfeited error
  | _, _ => False

/-- A send returns that has timed out or has lost its consume-claim. -/
def HandleVar.Forfeits (config : HandleConfig) (mem : Nat → Slot) : HandleVar → HandleOp → Prop
  | .sending _ i (.host call pc), .advance now =>
    (sendStep config.layout now (mem i) call pc).2 = .leaves (.failed .timeout)
  | .sending _ i (.guest send pc), .advance now =>
    ∃ error, (handleStep config.guest now (mem i) send pc).2 = .forfeited error
  | _, _ => False

/-- A send about to be refused for its size. -/
def Sending.Oversize (s : Slot) : Sending → Prop
  | .host call .checkSize => s.reqBuffer.length < call.size.natAbs
  | .guest send .checkSize => s.reqBuffer.length < send.absSize
  | _ => False

section Disowning

variable {config : HandleConfig} {session : Option Nat} {mem : Nat → Slot} {var : HandleVar}
  {op : HandleOp} {r : OpResult} {p p' : HandleSystem × HandleLog} {v i : Nat}

theorem HandleVar.Disowns.ends (hdisowns : var.Disowns config mem op)
    (hreach : var.reaches = some i) (hr : opStep config session mem var op = some r) :
    r.ending ≠ .none ∨ op = .destroy := by
  unfold HandleVar.Disowns at hdisowns
  split at hdisowns
  case h_1 handle =>
    refine Or.inl fun hkept => ?_
    cases handle with
    | zeroCopy h => cases hr
    | held h =>
      cases hr
      cases hreach.symm.trans (HostHandle.giveBack_kept hkept)
    | guest g =>
      cases hr
      cases hreach.symm.trans (GuestSlot.release_kept hkept)
  case h_2 => exact Or.inr rfl
  case h_3 handle i call pc now =>
    obtain ⟨result, hresult⟩ := hdisowns
    cases hr
    refine Or.inl fun hkept => ?_
    simp only [Sending.advance, hresult, hostReturn] at hkept
    split at hkept <;> cases hkept
  case h_4 handle i send pc now =>
    obtain ⟨error, herror⟩ := hdisowns
    cases hr
    refine Or.inl fun hkept => ?_
    simp only [Sending.advance, herror, guestReturn] at hkept
    cases hkept
  · exact hdisowns.elim

theorem HandleVar.Forfeits.ending (hforfeits : var.Forfeits config mem op) (hsound : var.Sound)
    (hr : opStep config session mem var op = some r) :
    r.ending = .forfeited ∧ op ≠ .destroy := by
  unfold HandleVar.Forfeits at hforfeits
  split at hforfeits
  case h_1 handle i call pc now =>
    cases hr
    refine ⟨?_, by intro hop; cases hop⟩
    simp only [Sending.advance, hforfeits, hostReturn]
    split
    case h_1 result =>
      have hresult : result = .failed .timeout := SendProgress.leaves.inj hforfeits
      exact absurd (congrArg SendPc.storeFree hresult) hsound.2.2
    case h_2 => rfl
  case h_2 handle i send pc now =>
    obtain ⟨error, herror⟩ := hforfeits
    cases hr
    refine ⟨?_, by intro hop; cases hop⟩
    simp only [Sending.advance, herror, guestReturn]
  · exact hforfeits.elim

theorem Accounted.disown {t : Nat} (h : Accounted p) (hrun : config.run p (.op v op) = some p')
    (hdisowns : (p.1.vars v).Disowns config p.1.mem op)
    (hreach : (p.1.vars v).reaches = some i) (ht : p.2.ledger.Live v t) :
    p'.2.ledger.Gone t := by
  obtain ⟨r, hr, rfl⟩ := run_op hrun
  have hends := hdisowns.ends hreach hr
  simp only [HandleOp.settle]
  split
  case isTrue hop =>
    cases hending : r.ending with
    | none => exact h.linear.gone_drop ht.1
    | freed | forfeited => exact (h.linear.gone_finish ht.1 _).drop v
  case isFalse hop =>
    cases hending : r.ending with
    | none => exact absurd hending (hends.resolve_right hop)
    | freed | forfeited => exact h.linear.gone_finish ht.1 _

theorem Accounted.forfeit {t : Nat} (h : Accounted p) (hrun : config.run p (.op v op) = some p')
    (hforfeits : (p.1.vars v).Forfeits config p.1.mem op) (ht : p.2.ledger.Live v t) :
    t ∉ p'.2.ledger.returned := by
  obtain ⟨r, hr, rfl⟩ := run_op hrun
  obtain ⟨hending, hop⟩ := hforfeits.ending (h.sound v) hr
  simp only [HandleOp.settle, if_neg hop, hending, Ending.settle]
  rw [TenureLedger.mem_returned_finish ht.1]
  intro hmem
  cases hmem with
  | inl hold => exact ht.2 (h.linear.returned t hold)
  | inr hback => cases hback.1

/-- A slot that is written is the slot of a tenure which goes on, and one that becomes free
has been returned for it, for the first time. -/
def WritesHeld (p : HandleSystem × HandleLog) (a : HandleAction)
    (p' : HandleSystem × HandleLog) : Prop :=
  ∀ j, p'.1.mem j ≠ p.1.mem j → ∃ v t, a.actor = some v ∧ p.2.ledger.Live v t ∧
    p.2.slots[t]? = some j ∧ t ∉ p.2.ledger.returned ∧
    ((p'.1.mem j).state = .free → (p.1.mem j).state ≠ .free → t ∈ p'.2.ledger.returned)

theorem Accounted.writesHeld {a : HandleAction} (h : Accounted p)
    (hrun : config.run p a = some p') (ha : ∀ i slot, a ≠ .elsewhere i slot) :
    WritesHeld p a p' := by
  intro j hj
  cases hactor : a.actor with
  | none => exact absurd (congrFun ((run_of_actor_none hrun hactor).2 ha) j) hj
  | some v =>
    obtain ⟨ending, heffect, hentry⟩ := h.entry hrun hactor
    obtain ⟨t, ht, hslot⟩ := h.covered v j (heffect.frame j hj)
    refine ⟨v, t, rfl, ht, hslot, fun hmem => ht.2 (h.linear.returned t hmem), ?_⟩
    intro hfree hne
    rw [hentry.returned, heffect.freed j hfree hne]
    exact (TenureLedger.mem_returned_finish ht.1 true t).mpr (Or.inr ⟨rfl, rfl⟩)

theorem Accounted.refused {handle : Handle} {send : Sending} (h : Accounted p)
    (hvar : p.1.vars v = .sending handle i send) (hsize : send.Oversize (p.1.mem i))
    (now : Nat) :
    config.run p (.op v (.advance now)) = some (p.1.setVar v (.idle handle), p.2) := by
  have hsound := h.sound v
  rw [hvar] at hsound
  have hadvance : send.advance config now p.1.mem handle i = ⟨p.1.mem, .idle handle, .none⟩ := by
    unfold Sending.Oversize at hsize
    split at hsize
    case h_1 call =>
      simp only [Sending.advance, sendStep, if_pos hsize, hsound.2.1, if_true, hostReturn,
        Function.update_eq_self]
    case h_2 send' =>
      simp only [Sending.advance, handleStep, if_pos hsize, guestReturn, Function.update_eq_self]
    · exact hsize.elim
  have hop : opStep config p.1.session p.1.mem (p.1.vars v) (.advance now) =
      some ⟨p.1.mem, .idle handle, .none⟩ := by
    rw [hvar, opStep, hadvance]
  simp only [HandleConfig.run, recorded, HandleSystem.step, recordHandles, recordOp, hop,
    Option.map_some]
  rfl

theorem refused_sendFlatBuffer {h : HostHandle} {size : Int}
    (hvar : p.1.vars v = .idle (.zeroCopy h))
    (hslot : (Handle.zeroCopy h).slot p.1.session = some i)
    (hsize : (p.1.mem i).reqBuffer.length < uint32 size) :
    config.run p (.op v (.sendFlatBuffer size)) = some p := by
  have hop : opStep config p.1.session p.1.mem (p.1.vars v) (.sendFlatBuffer size) =
      some ⟨p.1.mem, .idle (.zeroCopy h), .none⟩ := by
    rw [hvar]
    simp only [opStep, HostHandle.sendingFlatBuffer, hslot, if_pos hsize]
  have hsame : p.1.setVar v (.idle (.zeroCopy h)) = p.1 := by
    rw [HandleSystem.setVar, ← hvar, Function.update_eq_self]
  simp only [HandleConfig.run, recorded, HandleSystem.step, recordHandles, recordOp, hop,
    Option.map_some]
  exact congrArg some (Prod.ext hsame rfl)

/-- Handles are linear. However a program acquires, uses, moves, releases and destroys its
handles, and whatever happens to the slots meanwhile, no tenure of a slot is handed back
twice; only a tenure that goes on lets its handle write the slot; a release, a timeout, a
failed consume-claim ends it for every variable the handle may be moved to; and a send
refused for its size ends nothing. -/
theorem disown_terminal {s : HandleSystem} (hs : s.Initial)
    (hr : Reachable config.run (fun _ _ => True) (s, .new) p) :
    p.2.ledger.returned.Nodup ∧
    (∀ a p', config.run p a = some p' → (∀ i slot, a ≠ .elsewhere i slot) →
      WritesHeld p a p') ∧
    (∀ v op i p', config.run p (.op v op) = some p' →
      (p.1.vars v).Disowns config p.1.mem op → (p.1.vars v).reaches = some i →
      ∃ t, p.2.ledger.Live v t ∧ p.2.slots[t]? = some i ∧
        ((p.1.vars v).Forfeits config p.1.mem op → t ∉ p'.2.ledger.returned) ∧
        ∀ q, Reachable config.run (fun _ _ => True) p' q →
          q.2.ledger.Gone t ∧ (t ∈ q.2.ledger.returned ↔ t ∈ p'.2.ledger.returned)) ∧
    (∀ v handle i send now, p.1.vars v = .sending handle i send →
      send.Oversize (p.1.mem i) →
      config.run p (.op v (.advance now)) = some (p.1.setVar v (.idle handle), p.2) ∧
      ∃ t, p.2.ledger.Live v t ∧ p.2.slots[t]? = some i) ∧
    (∀ v h i size, p.1.vars v = .idle (.zeroCopy h) →
      (Handle.zeroCopy h).slot p.1.session = some i →
      (p.1.mem i).reqBuffer.length < uint32 size →
      config.run p (.op v (.sendFlatBuffer size)) = some p ∧
      ∃ t, p.2.ledger.Live v t ∧ p.2.slots[t]? = some i) := by
  have h := accounted_reachable hs hr
  refine ⟨h.linear.once, fun a p' hrun ha => h.writesHeld hrun ha, ?_, ?_, ?_⟩
  · intro v op i p' hrun hdisowns hreach
    obtain ⟨t, ht, hslot⟩ := h.covered v i hreach
    exact ⟨t, ht, hslot, fun hforfeits => h.forfeit hrun hforfeits ht,
      fun q hq => (h.step hrun).gone_reachable (h.disown hrun hdisowns hreach ht) hq⟩
  · intro v handle i send now hvar hsize
    have hsound := h.sound v
    rw [hvar] at hsound
    exact ⟨h.refused hvar hsize now, h.covered v i (by rw [hvar]; exact hsound.1)⟩
  · intro v h' i size hvar hslot hsize
    exact ⟨refused_sendFlatBuffer hvar hslot hsize,
      h.covered v i (by rw [hvar]; exact Handle.reaches_of_slot hslot)⟩

/-- A host's handle that times out and is moved, destroyed and replaced, and a guest's that
is released twice: one slot comes back. -/
theorem disown_terminal_two : ∃ p : HandleSystem × HandleLog,
    p.2.ledger.ended = [0, 1] ∧ p.2.ledger.returned = [1] ∧ p.2.ledger.returned.Nodup := by
  let config : HandleConfig := ⟨⟨true, 4⟩, ⟨⟨true, 4⟩, false, false⟩⟩
  let slot : Slot := ⟨.guestBusy, 0, 0, 0, 0, 0, .normal, [0], [0], false, 0⟩
  let s : HandleSystem := ⟨none, 0, fun _ => slot, fun _ => .absent⟩
  have hs : s.Initial := fun _ => rfl
  obtain ⟨p, hr, hp⟩ := exists_reachable_of_run config.run (s, .new)
    ([.init, .acquire 0 .held (some 2), .op 0 (.send 1 .normal)] ++
      List.replicate 8 (.op 0 (.advance 0)) ++
      [.op 0 .expire, .op 0 (.advance 0), .moveConstruct 1 0, .op 1 .release, .op 0 .destroy,
        .acquire 0 .guest (some 3), .op 0 .release, .op 0 .release])
    (fun p => decide (p.2.ledger.ended = [0, 1] ∧ p.2.ledger.returned = [1])) (by decide)
  rw [decide_eq_true_eq] at hp
  exact ⟨p, hp.1, hp.2, (disown_terminal hs hr).1⟩

end Disowning

end ShmIpc.Slots
