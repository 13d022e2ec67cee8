import Mathlib.Logic.Function.Basic
import ShmIpc.Library.Transition
import ShmIpc.Slots.HostThread
import ShmIpc.Slots.Tenancy
import ShmIpc.Slots.Worker

/-!
A host slot with everyone who uses it: any number of host threads and the slot's
one guest worker. A step lets one party perform its next atomic action.

A host thread owns the slot from its successful claim until it returns from the
send that gives the slot up. Where it stands and the changes it can make there are
all that later arguments use of the send code.
-/

namespace ShmIpc.Slots

variable {Tid : Type} [DecidableEq Tid]

structure HostSystem (Tid : Type) where
  slot : Slot
  host : Tid → HostPc
  worker : WorkerPc

inductive HostAction (Tid : Type)
  | host (t : Tid) (move : HostMove)
  | worker (move : WorkerMove)

def HostSystem.step (layout : Layout) (s : HostSystem Tid) :
    HostAction Tid → Option (HostSystem Tid)
  | .host t move => (hostStep layout s.slot (s.host t) move).map fun r =>
    { s with slot := r.1, host := Function.update s.host t r.2 }
  | .worker move => (workerStep layout s.slot s.worker move).map fun r =>
    { s with slot := r.1, worker := r.2 }

structure HostSystem.Initial (s : HostSystem Tid) : Prop where
  free : s.slot.state = .free
  flag : s.slot.activeWait = false
  gen : s.slot.gen < genPeriod
  idle : ∀ t, s.host t = .idle
  polling : s.worker = .polling

theorem HostSystem.step_host {layout : Layout} {s s' : HostSystem Tid} {t : Tid}
    {move : HostMove} (h : s.step layout (.host t move) = some s') :
    ∃ slot' pc', hostStep layout s.slot (s.host t) move = some (slot', pc') ∧
      s' = { s with slot := slot', host := Function.update s.host t pc' } := by
  obtain ⟨r, hr, rfl⟩ := Option.map_eq_some_iff.mp h
  exact ⟨r.1, r.2, hr, rfl⟩

theorem HostSystem.step_worker {layout : Layout} {s s' : HostSystem Tid} {move : WorkerMove}
    (h : s.step layout (.worker move) = some s') :
    ∃ slot' pc', workerStep layout s.slot s.worker move = some (slot', pc') ∧
      s' = { s with slot := slot', worker := pc' } := by
  obtain ⟨r, hr, rfl⟩ := Option.map_eq_some_iff.mp h
  exact ⟨r.1, r.2, hr, rfl⟩

def SendPc.phase : SendPc → Phase
  | .checkSize | .storeReqSize | .storeMsgType | .storeMsgSeq | .storeNextSeq _
  | .storeLease _ | .raiseActiveWait _ => .preparing
  | .storeReqReady _ => .armed
  | .reraiseActiveWait | .waiting _ | .dropActiveWait _ false => .awaiting
  | .park _ => .ready
  | .dropActiveWait _ true | .checkSeq _ | .checkType | .loadRespSize | .copyResponse _
  | .storeFree _ => .consuming

def HostPc.standing : HostPc → Standing
  | .idle | .reclaiming _ => .tenant .outside
  | .claiming pc => .claiming pc
  | .owned => .tenant .preparing
  | .sending _ pc => .tenant pc.phase
  | .inFlight _ => .tenant .awaiting

def HostPc.phase (pc : HostPc) : Phase := pc.standing.phase

/-- A thread that is not in the middle of a takeover. -/
def HostPc.Tenant : HostPc → Prop
  | .claiming _ | .reclaiming _ => False
  | _ => True

theorem HostPc.Tenant.standing_eq {pc : HostPc} (h : pc.Tenant) :
    pc.standing = .tenant pc.phase := by
  cases pc with
  | claiming | reclaiming => cases h
  | idle | owned | sending | inFlight => rfl

theorem SendPc.owns (pc : SendPc) : pc.phase.owns = true := by
  cases pc with
  | dropActiveWait seq ready => cases ready with
    | true => rfl
    | false => rfl
  | _ => rfl

theorem HostPc.Tenant.idle {pc : HostPc} (h : pc.Tenant) (hout : pc.phase = .outside) :
    pc = .idle := by
  cases pc with
  | claiming | reclaiming => cases h
  | idle => rfl
  | owned | inFlight => cases hout
  | sending call pc =>
    have howns := pc.owns
    rw [show pc.phase = .outside from hout] at howns
    cases howns

/-- What one action of a host thread does to the slot. A slot is kept after a send
only by the kinds of send that keep it. -/
inductive HostChange (s : Slot) : HostPc → HostPc → Slot → Prop
  | startClaim : HostChange s .idle (.claiming (.loadState s.gen)) s
  | claim (now : Nat) (pc : ClaimPc) :
      HostChange s (.claiming pc) (.afterClaim (Cpp.tryClaimSlot.step now s pc).2)
        (Cpp.tryClaimSlot.step now s pc).1
  | startReclaim (pc : ReclaimPc) : HostChange s .idle (.reclaiming pc) s
  | reclaim (now : Nat) (pc : ReclaimPc) :
      HostChange s (.reclaiming pc) (.afterReclaim (reclaimStep now s pc).2)
        (reclaimStep now s pc).1
  | tenant (pc pc' : HostPc) (s' : Slot) (hpc : pc.Tenant) (hpc' : pc'.Tenant)
      (hkeep : ∀ call sp, pc = .sending call sp → call.kind.keepsSlot = false →
        pc'.phase = .preparing → pc.phase = .preparing)
      (h : PhaseChange Cpp.tryClaimSlot s pc.phase pc'.phase s') : HostChange s pc pc' s'

inductive ReclaimChange (s : Slot) : ReclaimPc → Slot → Prop
  | look (pc : ReclaimPc) (gen : Nat) : ReclaimChange s pc { s with gen := gen }
  | free (observed : SlotState) (h : s.state = observed) :
      ReclaimChange s (.casState observed) { s with state := .free }

theorem ReclaimChange.flag_eq {s s' : Slot} {pc : ReclaimPc} (h : ReclaimChange s pc s') :
    s'.activeWait = s.activeWait := by
  cases h with
  | look | free => rfl

theorem reclaim_change (now : Nat) (s : Slot) (pc : ReclaimPc) :
    ReclaimChange s pc (reclaimStep now s pc).1 := by
  cases pc with
  | loadState | loadLease | readClock | reloadLease =>
    simp only [reclaimStep]
    split
    · exact .look _ s.gen
    · exact .look _ s.gen
  | casGen gen observed =>
    simp only [reclaimStep]
    split
    · exact .look _ _
    · exact .look _ s.gen
  | casState observed =>
    simp only [reclaimStep]
    split
    case isTrue h => exact .free observed h
    case isFalse h => exact .look _ s.gen

def SendProgress.phase : SendProgress → Phase
  | .running pc => pc.phase
  | .inFlight => .awaiting
  | .keeps _ => .preparing
  | .leaves _ => .outside

theorem phase_afterSend (call : HostCall) (r : SendProgress) :
    (HostPc.afterSend call r).Tenant ∧ (HostPc.afterSend call r).phase = r.phase := by
  cases r with
  | running | inFlight | keeps | leaves => exact ⟨trivial, rfl⟩

theorem standing_afterClaim (r : Progress ClaimPc) :
    (HostPc.afterClaim r).standing = .afterClaim r := by
  cases r with
  | running pc => rfl
  | returned ok => cases ok with
    | true => rfl
    | false => rfl

theorem send_change (layout : Layout) (now : Nat) (s : Slot) (call : HostCall) (pc : SendPc) :
    PhaseChange Cpp.tryClaimSlot s pc.phase (sendStep layout now s call pc).2.phase
      (sendStep layout now s call pc).1 := by
  cases pc with
  | checkSize =>
    simp only [sendStep]
    split
    · split
      · exact .keep _ (.inl rfl)
      · exact .settle _ s.activeWait s.lease (.inl rfl)
    · exact .prepare _ rfl rfl
  | storeReqSize | storeMsgType | storeMsgSeq | storeLease =>
    simp only [sendStep]
    exact .prepare _ rfl rfl
  | storeNextSeq seq =>
    simp only [sendStep]
    split
    · exact .prepare _ rfl rfl
    · exact .prepare _ rfl rfl
  | raiseActiveWait seq => exact .raise
  | storeReqReady seq =>
    simp only [sendStep]
    split
    · exact .publish
    · exact .publish
  | reraiseActiveWait => exact .reraise
  | waiting seq =>
    simp only [sendStep]
    split
    case isTrue h => exact .sees h
    case isFalse h => exact .stay _
  | park seq => exact .consume
  | dropActiveWait seq ready =>
    cases ready with
    | false => exact .giveUp
    | true => exact .settle _ false s.lease (.inr rfl)
  | checkSeq seq =>
    simp only [sendStep]
    split
    · exact .stay _
    · exact .stay _
  | checkType =>
    simp only [sendStep]
    split
    · exact .stay _
    · split
      · exact .keep _ (.inr rfl)
      · exact .stay _
  | loadRespSize => exact .stay _
  | copyResponse n =>
    simp only [sendStep]
    split
    · exact .keep _ (.inr rfl)
    · exact .stay _
  | storeFree r => exact .free _ (.inr rfl)

theorem send_keeps (layout : Layout) (now : Nat) (s : Slot) (call : HostCall) (pc : SendPc)
    (hkind : call.kind.keepsSlot = false)
    (h : (sendStep layout now s call pc).2.phase = .preparing) : pc.phase = .preparing := by
  cases pc with
  | checkSize | storeReqSize | storeMsgType | storeMsgSeq | storeNextSeq | storeLease
  | raiseActiveWait => rfl
  | storeReqReady | waiting | checkSeq =>
    simp only [sendStep] at h
    split at h
    · cases h
    · cases h
  | dropActiveWait seq ready =>
    cases ready with
    | false => cases h
    | true => cases h
  | checkType =>
    simp only [sendStep] at h
    split at h
    · cases h
    · split at h
      case isTrue hzero => rw [hzero] at hkind; cases hkind
      case isFalse _ => cases h
  | copyResponse n =>
    simp only [sendStep] at h
    split at h
    case isTrue hheld => rw [hheld] at hkind; cases hkind
    case isFalse _ => cases h
  | reraiseActiveWait | park | loadRespSize | storeFree => cases h

theorem hostStep_change {layout : Layout} {s s' : Slot} {pc pc' : HostPc} {move : HostMove}
    (h : hostStep layout s pc move = some (s', pc')) : HostChange s pc pc' s' := by
  revert h
  fun_cases hostStep layout s pc move with
  | case1 => intro h; cases h; exact .startClaim
  | case2 => intro h; cases h; exact .startReclaim _
  | case3 pc now r => intro h; cases h; exact .claim now pc
  | case4 pc now r => intro h; cases h; exact .reclaim now pc
  | case5 | case7 =>
    intro h
    cases h
    exact .tenant _ _ _ True.intro True.intro (fun _ _ _ _ _ => rfl) (.prepare _ rfl rfl)
  | case8 =>
    intro h
    cases h
    refine .tenant _ _ _ True.intro True.intro ?_ (.free _ (.inl rfl))
    intro _ _ _ _ hprep
    cases hprep
  | case9 call pc now r =>
    intro h
    cases h
    obtain ⟨htenant, hphase⟩ := phase_afterSend call (sendStep layout now s call pc).2
    refine .tenant _ _ _ True.intro htenant ?_ ?_
    · intro _ _ heq hkind hprep
      cases heq
      rw [hphase] at hprep
      exact send_keeps layout now s call pc hkind hprep
    · rw [hphase]
      exact send_change layout now s call pc
  | case11 | case12 =>
    intro h
    cases h
    refine .tenant _ _ _ True.intro True.intro ?_ (.stay _)
    intro _ _ _ _ hprep
    cases hprep
  | case6 | case10 | case13 => intro h; cases h

/-- The worker has claimed a request and not yet finished with it. -/
def WorkerPc.served : WorkerPc → Bool
  | .polling | .bumpGen | .claim | .exited => false
  | _ => true

def WorkerPc.locked : WorkerPc → Bool
  | .write _ _ | .publish _ => true
  | _ => false

theorem afterAnswer_unserved (exits : Bool) : (WorkerPc.afterAnswer exits).served = false := by
  cases exits with
  | false => rfl
  | true => rfl

theorem WorkerPc.served_of_locked {pc : WorkerPc} (h : pc.locked = true) : pc.served = true := by
  cases pc with
  | write _ _ | publish _ => rfl
  | _ => cases h

/-- What one action of the worker does to the slot's state. -/
inductive WorkerChange (s : Slot) : WorkerPc → WorkerPc → Slot → Prop
  | quiet (pc pc' : WorkerPc) (s' : Slot) (hstate : s'.state = s.state)
      (hgen : s'.gen = s.gen) (hflag : s'.activeWait = s.activeWait)
      (hserved : pc'.served = true → pc.served = true)
      (hlocked : pc'.locked = true → pc.locked = true) : WorkerChange s pc pc' s'
  | tick : WorkerChange s .bumpGen .claim s.bumpGen
  | claim (pc' : WorkerPc) (h : s.state = .reqReady) (hlocked : pc'.locked = false) :
      WorkerChange s .claim pc' { s with state := .guestBusy }
  | lock (writes : List HeaderWrite) (exits : Bool) (h : s.state = .guestBusy) :
      WorkerChange s (.lock writes exits) (.write writes exits) { s with state := .done }
  | publish (exits : Bool) (h : s.state = .done) :
      WorkerChange s (.publish exits) (.afterAnswer exits) { s with state := .respReady }

theorem WorkerChange.same {s : Slot} {pc pc' : WorkerPc}
    (hserved : pc'.served = true → pc.served = true)
    (hlocked : pc'.locked = true → pc.locked = true) : WorkerChange s pc pc' s :=
  .quiet pc pc' s rfl rfl rfl hserved hlocked

theorem WorkerChange.drop {s : Slot} {pc pc' : WorkerPc} (h : pc'.served = false) :
    WorkerChange s pc pc' s := by
  refine .same ?_ ?_
  · intro h'
    rw [h] at h'
    cases h'
  · intro h'
    rw [WorkerPc.served_of_locked h'] at h
    cases h

theorem workerStep_change {layout : Layout} {s s' : Slot} {pc pc' : WorkerPc} {move : WorkerMove}
    (h : workerStep layout s pc move = some (s', pc')) : WorkerChange s pc pc' s' := by
  cases workerGoes_of_step h with
  | found =>
    refine .drop ?_
    split
    · rfl
    · rfl
  | poll | close | missed | stolen | closeLate => exact .drop rfl
  | bump => exact .tick
  | claim now hstate =>
    refine .claim _ hstate ?_
    split
    · rfl
    · rfl
  | lease | writes => exact .quiet _ _ _ rfl rfl rfl (fun _ => rfl) (fun h => h)
  | shutdown | heartbeat | request | call | refuse | reads | returns | panics | recover =>
    exact .same (fun _ => rfl) (fun h => h)
  | lock writes exits now hstate => exact .lock writes exits hstate
  | lost writes exits | withdrawn exits => exact .drop (afterAnswer_unserved exits)
  | write w =>
    cases w with
    | respSize value => exact .quiet _ _ _ rfl rfl rfl (fun _ => rfl) (fun _ => rfl)
    | msgType value => exact .quiet _ _ _ rfl rfl rfl (fun _ => rfl) (fun _ => rfl)
  | written => exact .same (fun _ => rfl) (fun _ => rfl)
  | publish exits now hstate => exact .publish exits hstate

def smallSlot : Slot where
  state := .free
  gen := 0
  lease := 0
  msgSeq := 0
  reqSize := 0
  respSize := 0
  msgType := .normal
  reqBuffer := [0, 0]
  respBuffer := [0, 0]
  activeWait := false
  nextSeq := 1

def smallStart (Tid : Type) : HostSystem Tid where
  slot := smallSlot
  host _ := .idle
  worker := .polling

theorem smallStart_initial (Tid : Type) : (smallStart Tid).Initial :=
  ⟨rfl, rfl, Nat.two_pow_pos 64, fun _ => rfl, rfl⟩

def hostAdvances (t : Tid) (n : Nat) : List (HostAction Tid) :=
  List.replicate n (.host t (.advance 0))

def workerAdvances (Tid : Type) (n : Nat) : List (HostAction Tid) :=
  List.replicate n (.worker (.advance 0))

def claimRun (t : Tid) : List (HostAction Tid) :=
  .host t .tryClaim :: hostAdvances t 4

def sendRun (t : Tid) (kind : SendKind) : List (HostAction Tid) :=
  .host t (.send ⟨kind, 1, .normal⟩) :: hostAdvances t (if kind = .held then 8 else 7)

def serveRun (Tid : Type) : List (HostAction Tid) :=
  workerAdvances Tid 4 ++ [.worker (.handlerReturns 1 .normal), .worker (.advance 0)]

end ShmIpc.Slots
