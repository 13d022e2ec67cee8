import ShmIpc.Slots.HostSystem

/-!
Exclusive ownership of a host slot. When no reclaimer runs and a steal only takes
a slot whose previous owner has returned from its send, at most one host thread
owns the slot at a time, its phase determines which states the slot can be in,
and nobody moves the slot while the worker holds the publish lock.
-/

namespace ShmIpc.Slots

variable {Tid : Type}

/-- A thread that does not reclaim, and steals only from states it may steal from. -/
def HostPc.Lawful : HostPc → Prop
  | .claiming pc => pc.Lawful Cpp.tryClaimSlot
  | .reclaiming _ => False
  | _ => True

def HostAction.reclaims : HostAction Tid → Bool
  | .host _ (.tryReclaim _) => true
  | _ => false

theorem lawful_afterClaim {r : Progress ClaimPc}
    (h : (Standing.afterClaim r).Lawful Cpp.tryClaimSlot) : (HostPc.afterClaim r).Lawful := by
  cases r with
  | running pc => exact h
  | returned ok => cases ok with
    | true => trivial
    | false => trivial

theorem lawful_hostStep {layout : Layout} {s s' : Slot} {pc pc' : HostPc} {move : HostMove}
    (hmove : ∀ age, move ≠ .tryReclaim age) (hlawful : pc.Lawful)
    (h : hostStep layout s pc move = some (s', pc')) : pc'.Lawful := by
  revert h hlawful
  fun_cases hostStep layout s pc move with
  | case1 => intro _ h; cases h; trivial
  | case2 age => exact absurd rfl (hmove age)
  | case3 pc now r =>
    intro hlawful h
    cases h
    exact lawful_afterClaim (lawful_claim Cpp.tryClaimSlot now s pc hlawful)
  | case4 pc now r => intro hlawful; cases hlawful
  | case5 => intro _ h; cases h; trivial
  | case6 => intro _ h; cases h
  | case7 => intro _ h; cases h; trivial
  | case8 => intro _ h; cases h; trivial
  | case9 call pc now r =>
    intro _ h
    cases h
    cases r.2 with
    | running _ | inFlight | keeps _ | leaves _ => trivial
  | case10 => intro _ h; cases h
  | case11 => intro _ h; cases h; trivial
  | case12 => intro _ h; cases h; trivial
  | case13 => intro _ h; cases h

/-- The exchange of a slot between host threads is exclusive: a steal that is
about to succeed finds no other thread in possession. -/
def Exclusive (s : HostSystem Tid) (a : HostAction Tid) : Prop :=
  ∀ t current now, a = .host t (.advance now) → s.host t = .claiming (.casState current) →
    s.slot.state = current → ∀ u, u ≠ t → (s.host u).phase = .outside

structure Own (s : HostSystem Tid) : Prop where
  lawful : ∀ t, (s.host t).Lawful
  possession : Possession Cpp.tryClaimSlot s.slot.state (fun t => (s.host t).phase)
  locked : s.worker.locked = true → s.slot.state = .done

theorem own_initial {s : HostSystem Tid} (h : s.Initial) : Own s where
  lawful t := by rw [h.idle t]; trivial
  possession := by
    have hout : ∀ t, (s.host t).phase = .outside := by
      intro t
      rw [h.idle t]
      rfl
    simp only [hout]
    exact ⟨nofun, fun _ => trivial, nofun⟩
  locked hl := by rw [h.polling] at hl; cases hl

theorem HostPc.outside_iff (pc : HostPc) : pc.phase = .outside ↔ pc.phase.owns = false := by
  cases pc with
  | idle | reclaiming | owned | inFlight =>
    simp [HostPc.phase, HostPc.standing, Standing.phase, Phase.owns]
  | claiming pc =>
    cases pc with
    | _ => simp [HostPc.phase, HostPc.standing, Standing.phase, Phase.owns]
  | sending call pc =>
    have howns := pc.owns
    show pc.phase = .outside ↔ pc.phase.owns = false
    rw [howns]
    refine ⟨?_, nofun⟩
    intro hout
    rw [hout] at howns
    cases howns

theorem HostPc.not_releasing (pc : HostPc) : pc.phase ≠ .releasing := by
  intro hrel
  have hout : pc.phase = .outside := (HostPc.outside_iff pc).mpr (by rw [hrel]; rfl)
  rw [hrel] at hout
  cases hout

theorem HostPc.owns_of_ne {pc : HostPc} (h : pc.phase ≠ .outside) : pc.phase.owns = true := by
  by_contra howns
  exact h ((HostPc.outside_iff pc).mpr (Bool.not_eq_true _ ▸ howns))

theorem Own.others {s : HostSystem Tid} (hown : Own s) {t : Tid}
    (ht : (s.host t).phase ≠ .outside) (u : Tid) (hu : u ≠ t) : (s.host u).phase = .outside :=
  (HostPc.outside_iff _).mpr (hown.possession.others (HostPc.owns_of_ne ht) u hu)

theorem WorkerChange.peer {s s' : Slot} {pc pc' : WorkerPc} (h : WorkerChange s pc pc' s') :
    PeerChange Cpp.tryClaimSlot s s' := by
  cases h with
  | quiet _ _ _ hstate _ hflag => exact .quiet _ hstate hflag
  | tick => exact .quiet _ rfl rfl
  | claim _ h => exact .take h
  | lock _ _ h => exact .lock h
  | publish _ h => exact .answer h

theorem own_worker {s : HostSystem Tid} {pc' : WorkerPc} {slot' : Slot} (hown : Own s)
    (hchange : WorkerChange s.slot s.worker pc' slot') :
    Own { s with slot := slot', worker := pc' } := by
  refine ⟨hown.lawful, hown.possession.peer tryClaimSlot_proper hchange.peer, ?_⟩
  have hlocked := hown.locked
  generalize s.worker = pc at hchange hlocked
  intro hl
  cases hchange with
  | quiet _ _ _ hstate _ _ _ hold => exact hstate.trans (hlocked (hold hl))
  | tick => cases hl
  | claim _ _ hfalse =>
    rw [show pc'.locked = true from hl] at hfalse
    cases hfalse
  | lock => rfl
  | publish exits =>
    have hserved := WorkerPc.served_of_locked hl
    rw [show (WorkerPc.afterAnswer exits).served = false from afterAnswer_unserved exits]
      at hserved
    cases hserved

variable [DecidableEq Tid]

theorem phase_update (host : Tid → HostPc) (t : Tid) (pc' : HostPc) :
    (fun u => (Function.update host t pc' u).phase) =
      Function.update (fun u => (host u).phase) t pc'.phase := by
  funext u
  exact Function.apply_update (fun _ => HostPc.phase) host t pc' u

theorem own_host {s : HostSystem Tid} {t : Tid} {pc pc' : HostPc} {slot' : Slot} (hown : Own s)
    (hpc : s.host t = pc) (hlawful : pc'.Lawful) (hchange : HostChange s.slot pc pc' slot')
    (hexcl : ∀ current, pc = .claiming (.casState current) → s.slot.state = current →
      ∀ u, u ≠ t → (s.host u).phase = .outside) :
    Own { s with slot := slot', host := Function.update s.host t pc' } := by
  have hpossession := hown.possession
  have hlawful₀ : pc.Lawful := hpc ▸ hown.lawful t
  have hphase : (s.host t).phase = pc.phase := congrArg HostPc.phase hpc
  refine ⟨(Function.forall_update_iff s.host fun _ pc => pc.Lawful).mpr
    ⟨hlawful, fun u _ => hown.lawful u⟩, ?_, ?_⟩
  · simp only [phase_update]
    cases hchange with
    | startClaim => exact hpossession.away
    | claim now pc =>
      rw [show (HostPc.afterClaim _).phase = _ from
        congrArg Standing.phase (standing_afterClaim (Cpp.tryClaimSlot.step now s.slot pc).2)]
      refine hpossession.claim tryClaimSlot_proper hphase ?_ (claim_change _ now s.slot pc)
      rintro current rfl hcurrent u hu
      exact (HostPc.outside_iff _).mp (hexcl current rfl hcurrent u hu)
    | startReclaim => exact hlawful.elim
    | reclaim => exact hlawful₀.elim
    | tenant _ _ _ _ _ _ h =>
      exact hpossession.change tryClaimSlot_proper hphase
        (fun _ u _ => HostPc.not_releasing _) h
  · intro hl
    have hdone := hown.locked hl
    cases hchange with
    | startClaim => exact hdone
    | claim now pc => exact (claim_change _ now s.slot pc).done tryClaimSlot_proper hlawful₀ hdone
    | startReclaim => exact hlawful.elim
    | reclaim => exact hlawful₀.elim
    | tenant _ _ _ _ _ _ h =>
      exact h.done tryClaimSlot_proper (hphase ▸ hpossession.allows t) hdone

theorem own_step {layout : Layout} {s s' : HostSystem Tid} {a : HostAction Tid} (hown : Own s)
    (hreclaim : a.reclaims = false) (hexcl : Exclusive s a) (h : s.step layout a = some s') :
    Own s' := by
  cases a with
  | host t move =>
    obtain ⟨slot', pc', hstep, rfl⟩ := HostSystem.step_host h
    refine own_host hown rfl (lawful_hostStep ?_ (hown.lawful t) hstep) (hostStep_change hstep) ?_
    · rintro age rfl
      cases hreclaim
    · intro current hpc hcurrent
      rw [hpc] at hstep
      cases move with
      | advance now => exact hexcl t current now rfl hpc hcurrent
      | _ => cases hstep
  | worker move =>
    obtain ⟨slot', pc', hstep, rfl⟩ := HostSystem.step_worker h
    exact own_worker hown (workerStep_change hstep)

end ShmIpc.Slots
