import ShmIpc.Library.Transition
import ShmIpc.Slots.HostSystem
import ShmIpc.Slots.Processor

/-!
A guest slot with everyone who uses it: any number of goroutines that call the host
and any number of host threads that process such calls. Where a goroutine stands
and the changes it can make there are all that the ownership arguments use of the
call's code.
-/

namespace ShmIpc.Slots

open Library

variable {Tid Pid : Type} [DecidableEq Tid] [DecidableEq Pid]

structure GuestSystem (Tid Pid : Type) where
  slot : Slot
  guest : Tid → GuestPc
  processor : Pid → ProcessorPc

inductive GuestAction (Tid Pid : Type)
  | guest (t : Tid) (move : GuestMove)
  | processor (p : Pid) (move : ProcessorMove)

def GuestSystem.step (config : GuestConfig) (s : GuestSystem Tid Pid) :
    GuestAction Tid Pid → Option (GuestSystem Tid Pid)
  | .guest t move => (guestStep config s.slot (s.guest t) move).map fun r =>
    { s with slot := r.1, guest := Function.update s.guest t r.2 }
  | .processor p move => (processorStep config s.slot (s.processor p) move).map fun r =>
    { s with slot := r.1, processor := Function.update s.processor p r.2 }

structure GuestSystem.Initial (s : GuestSystem Tid Pid) : Prop where
  free : s.slot.state = .free
  flag : s.slot.activeWait = false
  gen : s.slot.gen < genPeriod
  idle : ∀ t, s.guest t = .idle
  scanning : ∀ p, s.processor p = .scanning

theorem GuestSystem.step_guest {config : GuestConfig} {s s' : GuestSystem Tid Pid} {t : Tid}
    {move : GuestMove} (h : s.step config (.guest t move) = some s') :
    ∃ slot' pc', guestStep config s.slot (s.guest t) move = some (slot', pc') ∧
      s' = { s with slot := slot', guest := Function.update s.guest t pc' } := by
  obtain ⟨r, hr, rfl⟩ := Option.map_eq_some_iff.mp h
  exact ⟨r.1, r.2, hr, rfl⟩

theorem GuestSystem.step_processor {config : GuestConfig} {s s' : GuestSystem Tid Pid} {p : Pid}
    {move : ProcessorMove} (h : s.step config (.processor p move) = some s') :
    ∃ slot' pc', processorStep config s.slot (s.processor p) move = some (slot', pc') ∧
      s' = { s with slot := slot', processor := Function.update s.processor p pc' } := by
  obtain ⟨r, hr, rfl⟩ := Option.map_eq_some_iff.mp h
  exact ⟨r.1, r.2, hr, rfl⟩

def GuestSendPc.phase : GuestSendPc → Phase
  | .checkSize | .refuse | .copyRequest | .storeReqSize | .storeMsgType | .storeMsgSeq
  | .storeNextSeq _ | .raiseActiveWait _ => .preparing
  | .storeReqReady _ => .armed
  | .waiting _ | .dropActiveWait _ .lost | .dropActiveWait _ .timedOut => .awaiting
  | .bumpGen _ | .consume _ => .ready
  | .storeLease _ | .dropActiveWait _ .consumed => .consuming
  | .checkSeq fast _ | .checkType fast | .loadRespSize fast | .copyResponse fast _ =>
    if fast then .ready else .consuming
  | .clearActiveWait _ => .ready
  | .release fast _ => if fast then .releasing else .consuming

def GuestPc.standing : GuestPc → Standing
  | .idle | .reclaiming _ => .tenant .outside
  | .claiming _ pc => .claiming pc
  | .sending _ pc => .tenant pc.phase

def GuestPc.phase (pc : GuestPc) : Phase := pc.standing.phase

def GuestProgress.phase : GuestProgress → Phase
  | .running pc => pc.phase
  | .returned _ => .outside

theorem guestStanding_afterSend (call : GuestCall) (r : GuestProgress) :
    (GuestPc.afterSend call r).standing = .tenant r.phase := by
  cases r with
  | running | returned => rfl

theorem guestStanding_afterClaim (call : GuestCall) (r : Progress ClaimPc) :
    (GuestPc.afterClaim call r).standing = .afterClaim r := by
  cases r with
  | running pc => rfl
  | returned ok => cases ok with
    | true => rfl
    | false => rfl

theorem lawful_guestStep {config : GuestConfig} {s s' : Slot} {pc pc' : GuestPc}
    {move : GuestMove} (hlawful : pc.standing.Lawful Go.tryClaimGuestSlot)
    (h : guestStep config s pc move = some (s', pc')) :
    pc'.standing.Lawful Go.tryClaimGuestSlot := by
  revert h hlawful
  fun_cases guestStep config s pc move with
  | case1 | case2 | case3 | case8 => intro _ h; cases h; trivial
  | case4 call pc now r =>
    intro hlawful h
    cases h
    rw [guestStanding_afterClaim]
    exact lawful_claim Go.tryClaimGuestSlot now s pc hlawful
  | case5 pc now r =>
    intro _ h
    cases h
    cases r.2 with
    | running | returned => trivial
  | case6 call pc now r =>
    intro _ h
    cases h
    rw [guestStanding_afterSend]
    trivial
  | case7 | case9 => intro _ h; cases h

theorem releaseOwned_phase (fast : Bool) (result : GuestResult) :
    (GuestSendPc.releaseOwned fast result).phase = if fast then .ready else .consuming := by
  cases fast with
  | true => rfl
  | false => rfl

theorem guestSend_change (config : GuestConfig) (now : Nat) (s : Slot) (call : GuestCall)
    (pc : GuestSendPc) (hpc : ∀ seq, pc ≠ .bumpGen seq) :
    PhaseChange Go.tryClaimGuestSlot s pc.phase (guestSendStep config now s call pc).2.phase
      (guestSendStep config now s call pc).1 := by
  have hstay : ∀ {fast : Bool} (result : GuestResult), PhaseChange Go.tryClaimGuestSlot s
      (if fast then .ready else .consuming) (GuestSendPc.releaseOwned fast result).phase s := by
    intro fast result
    rw [releaseOwned_phase]
    exact .stay _
  cases pc with
  | checkSize =>
    simp only [guestSendStep]
    split
    · exact .stay _
    · exact .stay _
  | refuse =>
    simp only [guestSendStep]
    split
    · exact .free _ (.inl rfl)
    case isFalse h => exact .freeLost _ (.inl rfl) h
  | copyRequest | storeReqSize | storeMsgType | storeMsgSeq | storeNextSeq =>
    simp only [guestSendStep]
    exact .prepare _ rfl rfl
  | raiseActiveWait seq => exact .raise
  | storeReqReady seq => exact .publish
  | waiting seq =>
    simp only [guestSendStep]
    split
    case isTrue h =>
      cases config.fastConsume with
      | true => exact .sees h
      | false => exact .sees h
    case isFalse h => exact .stay _
  | bumpGen seq => exact absurd rfl (hpc seq)
  | consume seq =>
    simp only [guestSendStep]
    split
    · exact .consume
    case isFalse h => exact .lose h
  | storeLease seq => exact .settle _ s.activeWait now (.inr rfl)
  | dropActiveWait seq outcome =>
    cases outcome with
    | consumed => exact .settle _ false s.lease (.inr rfl)
    | lost | timedOut => exact .giveUp
  | checkSeq fast seq =>
    simp only [guestSendStep]
    split
    · exact .stay _
    · exact hstay _
  | checkType fast =>
    simp only [guestSendStep]
    split
    · exact hstay _
    · exact .stay _
  | loadRespSize fast => exact .stay _
  | copyResponse fast n => exact hstay _
  | clearActiveWait result => exact .drop
  | release fast result =>
    cases fast with
    | true =>
      simp only [guestSendStep]
      split
      case isTrue h => exact .release h
      case isFalse h => exact .releaseLost h
    | false =>
      simp only [guestSendStep]
      split
      · exact .free _ (.inr rfl)
      case isFalse h => exact .freeLost _ (.inr rfl) h

theorem guestSend_keeps (config : GuestConfig) (now : Nat) (s : Slot) (call : GuestCall)
    (pc : GuestSendPc) (h : (guestSendStep config now s call pc).2.phase = .preparing) :
    pc.phase = .preparing := by
  cases pc with
  | checkSize | refuse | copyRequest | storeReqSize | storeMsgType | storeMsgSeq | storeNextSeq
  | raiseActiveWait => rfl
  | waiting seq =>
    simp only [guestSendStep] at h
    split at h
    · cases hfast : config.fastConsume with
      | true => simp [hfast, GuestProgress.phase, GuestSendPc.phase] at h
      | false => simp [hfast, GuestProgress.phase, GuestSendPc.phase] at h
    · cases h
  | dropActiveWait seq outcome => cases outcome with
    | _ => cases h
  | consume seq =>
    simp only [guestSendStep] at h
    split at h
    · cases h
    · cases h
  | checkSeq fast seq | checkType fast =>
    simp only [guestSendStep] at h
    split at h
    · cases fast with
      | _ => cases h
    · cases fast with
      | _ => cases h
  | loadRespSize fast | copyResponse fast => cases fast with
    | _ => cases h
  | storeReqReady | bumpGen | storeLease | clearActiveWait | release => cases h

/-- The processor has claimed a request and not yet finished with it. -/
def ProcessorPc.served : ProcessorPc → Bool
  | .scanning | .bumpGen | .claim => false
  | _ => true

def ProcessorPc.locked : ProcessorPc → Bool
  | .write _ | .publish => true
  | _ => false

theorem ProcessorPc.served_of_locked {pc : ProcessorPc} (h : pc.locked = true) :
    pc.served = true := by
  cases pc with
  | write | publish => rfl
  | _ => cases h

inductive ProcessorChange (s : Slot) : ProcessorPc → ProcessorPc → Slot → Prop
  | quiet (pc pc' : ProcessorPc) (s' : Slot) (hstate : s'.state = s.state) (hgen : s'.gen = s.gen)
      (hflag : s'.activeWait = s.activeWait)
      (hserved : pc'.served = true → pc.served = true ∧ pc'.locked = pc.locked) :
      ProcessorChange s pc pc' s'
  | tick : ProcessorChange s .bumpGen .claim s.bumpGen
  | claim (pc' : ProcessorPc) (h : s.state = .reqReady) (hserved : pc'.served = true)
      (hlocked : pc'.locked = false) : ProcessorChange s .claim pc' { s with state := .busy }
  | lock (writes : List HeaderWrite) (h : s.state = .busy) :
      ProcessorChange s (.lock writes) (.write writes) { s with state := .done }
  | publish (h : s.state = .done) :
      ProcessorChange s .publish .scanning { s with state := .respReady }

theorem processorStep_change {config : GuestConfig} {s s' : Slot} {pc pc' : ProcessorPc}
    {move : ProcessorMove} (h : processorStep config s pc move = some (s', pc')) :
    ProcessorChange s pc pc' s' := by
  cases processorGoes_of_step h with
  | found =>
    refine .quiet _ _ _ rfl rfl rfl ?_
    cases config.hostReclaim with
    | true => exact nofun
    | false => exact nofun
  | scan | missed | lost | withdrawn => exact .quiet _ _ _ rfl rfl rfl nofun
  | bump => exact .tick
  | claim now hstate =>
    cases config.hostReclaim with
    | true => exact .claim _ hstate rfl rfl
    | false => exact .claim _ hstate rfl rfl
  | lease | refuse | size | call | reads | writes | returns | written =>
    exact .quiet _ _ _ rfl rfl rfl (fun _ => ⟨rfl, rfl⟩)
  | lock writes now hstate => exact .lock writes hstate
  | write w =>
    cases w with
    | respSize value => exact .quiet _ _ _ rfl rfl rfl (fun _ => ⟨rfl, rfl⟩)
    | msgType value => exact .quiet _ _ _ rfl rfl rfl (fun _ => ⟨rfl, rfl⟩)
  | publish now hstate => exact .publish hstate

theorem ProcessorChange.peer {s s' : Slot} {pc pc' : ProcessorPc}
    (h : ProcessorChange s pc pc' s') : PeerChange Go.tryClaimGuestSlot s s' := by
  cases h with
  | quiet _ _ _ hstate _ hflag => exact .quiet _ hstate hflag
  | tick => exact .quiet _ rfl rfl
  | claim _ h => exact .take h
  | lock _ h => exact .lock h
  | publish h => exact .answer h

theorem ProcessorChange.gen_eq {s s' : Slot} {pc pc' : ProcessorPc}
    (h : ProcessorChange s pc pc' s') (hpc : pc ≠ .bumpGen) : s'.gen = s.gen := by
  cases h with
  | quiet _ _ _ _ hgen => exact hgen
  | tick => exact absurd rfl hpc
  | claim | lock | publish => rfl

def smallGuestStart (Tid Pid : Type) : GuestSystem Tid Pid where
  slot := smallSlot
  guest _ := .idle
  processor _ := .scanning

theorem smallGuestStart_initial (Tid Pid : Type) : (smallGuestStart Tid Pid).Initial :=
  ⟨rfl, rfl, Nat.two_pow_pos 64, fun _ => rfl, fun _ => rfl⟩

def guestAdvances (Pid : Type) (t : Tid) (n : Nat) : List (GuestAction Tid Pid) :=
  List.replicate n (.guest t (.advance 0))

def processorAdvances (Tid : Type) (p : Pid) (n : Nat) : List (GuestAction Tid Pid) :=
  List.replicate n (.processor p (.advance 0))

def guestCallRun (Pid : Type) (t : Tid) : List (GuestAction Tid Pid) :=
  .guest t (.call ⟨[1], .normal⟩) :: guestAdvances Pid t 12

def processRun (Tid : Type) (p : Pid) : List (GuestAction Tid Pid) :=
  processorAdvances Tid p 4 ++ [.processor p (.handlerReturns 1)] ++ processorAdvances Tid p 4

end ShmIpc.Slots
