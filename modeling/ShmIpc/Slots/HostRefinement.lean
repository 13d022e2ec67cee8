import ShmIpc.Slots.Ownership
import ShmIpc.Slots.Takeover

/-!
Host slots refine the abstract takeovers. Every step of a host thread that neither
reclaims nor keeps its slot after a send, and every step of the worker, is a step
of the abstract system with the same record in the ledger.
-/

namespace ShmIpc.Slots

open Library

variable {Tid : Type}

def HostSystem.view (s : HostSystem Tid) : Tenancy Tid where
  slot := s.slot
  seat t := (s.host t).standing

def HostAction.actor : HostAction Tid → Option Tid
  | .host t _ => some t
  | .worker _ => none

/-- Sends that keep the slot afterwards. -/
def HostAction.holds : HostAction Tid → Bool
  | .host _ (.send call) => call.kind.keepsSlot
  | _ => false

/-- A thread that does not reclaim and gives its slot back after each send. -/
def HostPc.Plain : HostPc → Prop
  | .reclaiming _ => False
  | .sending call _ | .inFlight call => call.kind.keepsSlot = false
  | _ => True

theorem plain_hostStep {layout : Layout} {s s' : Slot} {pc pc' : HostPc} {move : HostMove}
    (hreclaim : ∀ age, move ≠ .tryReclaim age)
    (hholds : ∀ call, move = .send call → call.kind.keepsSlot = false) (hplain : pc.Plain)
    (h : hostStep layout s pc move = some (s', pc')) : pc'.Plain := by
  revert h hplain
  fun_cases hostStep layout s pc move with
  | case1 | case5 | case8 => intro _ h; cases h; trivial
  | case2 age => exact absurd rfl (hreclaim age)
  | case3 pc now r =>
    intro _ h
    cases h
    cases r.2 with
    | running => trivial
    | returned ok => cases ok with
      | true => trivial
      | false => trivial
  | case4 pc now r => intro hplain; cases hplain
  | case7 call => intro _ h; cases h; exact hholds call rfl
  | case9 call pc now r =>
    intro hplain h
    cases h
    cases r.2 with
    | running | inFlight => exact hplain
    | keeps | leaves => trivial
  | case11 | case12 => intro hplain h; cases h; exact hplain
  | case6 | case10 | case13 => intro _ h; cases h

variable [DecidableEq Tid]

def recordHostClaims (s : HostSystem Tid) (a : HostAction Tid) (_ : HostSystem Tid)
    (h : Ledger Tid) : Ledger Tid :=
  match a with
  | .host t .tryClaim => h.note t
  | .host t (.advance _) =>
    match s.host t with
    | .claiming pc => h.record t s.slot pc
    | _ => h
  | .worker (.advance _) => if s.worker = .bumpGen then h.tick else h
  | _ => h

theorem HostSystem.view_update (s : HostSystem Tid) (slot' : Slot) (t : Tid) (pc' : HostPc) :
    HostSystem.view { s with slot := slot', host := Function.update s.host t pc' } =
      ⟨slot', Function.update s.view.seat t pc'.standing⟩ := by
  simp only [HostSystem.view, Tenancy.mk.injEq, true_and]
  funext u
  exact Function.apply_update (fun _ => HostPc.standing) s.host t pc' u

theorem recordHostClaims_tenant {layout : Layout} {s s' : HostSystem Tid} {t : Tid}
    {move : HostMove} (h : Ledger Tid) (hidle : s.host t ≠ .idle) (htenant : (s.host t).Tenant)
    (hstep : s.step layout (.host t move) = some s') :
    recordHostClaims s (.host t move) s' h = h := by
  obtain ⟨slot', pc', hhost, rfl⟩ := HostSystem.step_host hstep
  cases move with
  | tryClaim =>
    cases hpc : s.host t with
    | idle => exact absurd hpc hidle
    | _ => rw [hpc] at hhost; cases hhost
  | advance now =>
    simp only [recordHostClaims]
    cases hpc : s.host t with
    | claiming pc => rw [hpc] at htenant; cases htenant
    | _ => rfl
  | _ => rfl

theorem HostChange.act {s s' : Slot} {pc pc' : HostPc} (h : HostChange s pc pc' s')
    (hidle : pc ≠ .idle) (htenant : pc.Tenant) (hplain : pc.Plain) :
    pc'.Tenant ∧ PhaseChange Cpp.tryClaimSlot s pc.phase pc'.phase s' ∧
      (pc'.phase = .preparing → pc.phase = .preparing) := by
  cases h with
  | startClaim | startReclaim => exact absurd rfl hidle
  | claim | reclaim => cases htenant
  | tenant _ _ _ _ htenant' hkeep hphase =>
    refine ⟨htenant', hphase, ?_⟩
    intro hprep
    cases pc with
    | sending call sp => exact hkeep call sp rfl hplain hprep
    | owned => rfl
    | inFlight call =>
      rw [hprep] at hphase
      cases hphase.parked with
      | inl h => exact h
      | inr h => cases h
    | idle => exact absurd rfl hidle
    | claiming | reclaiming => cases htenant

theorem hostStep_refines {layout : Layout} {s s' : HostSystem Tid} {t : Tid} {move : HostMove}
    (h : Ledger Tid) (hreclaim : ∀ age, move ≠ .tryReclaim age) (hplain : (s.host t).Plain)
    (hstep : s.step layout (.host t move) = some s') :
    TenancyStep Cpp.tryClaimSlot s.view h (some t) s'.view
      (recordHostClaims s (.host t move) s' h) := by
  have hact : s.host t ≠ .idle → (s.host t).Tenant → TenancyStep Cpp.tryClaimSlot s.view h (some t)
      s'.view (recordHostClaims s (.host t move) s' h) := by
    intro hidle htenant
    rw [recordHostClaims_tenant h hidle htenant hstep]
    obtain ⟨slot', pc', hhost, rfl⟩ := HostSystem.step_host hstep
    obtain ⟨htenant', hphase, hkeep⟩ := (hostStep_change hhost).act hidle htenant hplain
    rw [HostSystem.view_update, htenant'.standing_eq]
    exact .act t _ _ slot' htenant.standing_eq hphase hkeep
  cases hpc : s.host t with
  | idle =>
    obtain ⟨slot', pc', hhost, rfl⟩ := HostSystem.step_host hstep
    rw [HostSystem.view_update]
    rw [hpc] at hhost
    cases move with
    | tryClaim =>
      cases hhost
      exact .start t (congrArg HostPc.standing hpc)
    | tryReclaim age => exact absurd rfl (hreclaim age)
    | _ => cases hhost
  | claiming pc =>
    obtain ⟨slot', pc', hhost, rfl⟩ := HostSystem.step_host hstep
    rw [HostSystem.view_update]
    rw [hpc] at hhost
    cases move with
    | advance now =>
      cases hhost
      rw [standing_afterClaim]
      simp only [recordHostClaims, hpc]
      exact .claim t now pc (congrArg HostPc.standing hpc)
    | _ => cases hhost
  | reclaiming pc => rw [hpc] at hplain; cases hplain
  | owned | sending | inFlight => exact hact (by rw [hpc]; nofun) (by rw [hpc]; trivial)

theorem WorkerChange.gen_eq {s s' : Slot} {pc pc' : WorkerPc} (h : WorkerChange s pc pc' s')
    (hpc : pc ≠ .bumpGen) : s'.gen = s.gen := by
  cases h with
  | quiet _ _ _ _ hgen => exact hgen
  | tick => exact absurd rfl hpc
  | claim | lock | publish => rfl

theorem workerStep_refines {layout : Layout} {s s' : HostSystem Tid} {move : WorkerMove}
    (h : Ledger Tid) (hstep : s.step layout (.worker move) = some s') :
    TenancyStep Cpp.tryClaimSlot s.view h none s'.view
      (recordHostClaims s (.worker move) s' h) := by
  obtain ⟨slot', pc', hworker, rfl⟩ := HostSystem.step_worker hstep
  by_cases hpc : s.worker = .bumpGen
  · rw [hpc] at hworker
    cases move with
    | advance now =>
      cases hworker
      simp only [recordHostClaims, hpc, if_true]
      exact .tick none
    | _ => cases hworker
  · have hrecord : recordHostClaims s (.worker move)
        { s with slot := slot', worker := pc' } h = h := by
      cases move with
      | advance now => simp only [recordHostClaims, hpc, if_false]
      | _ => rfl
    rw [hrecord]
    have hchange := workerStep_change hworker
    refine .peer slot' hchange.peer ?_
    exact hchange.gen_eq hpc

end ShmIpc.Slots
