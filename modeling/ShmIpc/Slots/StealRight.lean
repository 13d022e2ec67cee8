import ShmIpc.Slots.GuestRefinement
import ShmIpc.Slots.HostRefinement

/-!
The right to recycle a zombie. A steal wins the generation and then the state, in
two steps. Another claim can win the next generation in between, run a whole
transaction and bring the state back, and the late swap then takes the slot from a
thread that waits for its answer. In orderly runs this does not happen, on host
slots and on guest slots alike.
-/

namespace ShmIpc.Slots

open Library

variable {Tid Pid : Type} [DecidableEq Tid] [DecidableEq Pid]

/-- The steps of an orderly run on a host slot without reclaim and held sends. -/
def HostOrderly (p : HostSystem Tid × Ledger Tid) (a : HostAction Tid) : Prop :=
  (a.reclaims = false ∧ a.holds = false) ∧ Orderly Cpp.tryClaimSlot p.1.view p.2 a.actor

/-- The steps of an orderly run on a guest slot without reclaim. -/
def GuestOrderly (p : GuestSystem Tid Pid × Ledger Tid) (a : GuestAction Tid Pid) : Prop :=
  a.reclaims = false ∧ Orderly Go.tryClaimGuestSlot p.1.view p.2 a.actor

theorem hostFair_step {layout : Layout} {base : Nat} {s s' : HostSystem Tid} {h : Ledger Tid}
    {a : HostAction Tid} (hplain : ∀ t, (s.host t).Plain)
    (hfair : Fair Cpp.tryClaimSlot base s.view h) (hguard : HostOrderly (s, h) a)
    (hsystem : s.step layout a = some s') :
    (∀ t, (s'.host t).Plain) ∧
      Fair Cpp.tryClaimSlot base s'.view (recordHostClaims s a s' h) := by
  obtain ⟨⟨hreclaims, hholds⟩, horderly⟩ := hguard
  cases a with
  | host t move =>
    have hmove : ∀ age, move ≠ .tryReclaim age := by
      rintro age rfl
      cases hreclaims
    refine ⟨?_, hfair.step tryClaimSlot_proper horderly
      (hostStep_refines h hmove (hplain t) hsystem)⟩
    obtain ⟨slot', pc', hhost, heq⟩ := HostSystem.step_host hsystem
    rw [heq]
    refine (Function.forall_update_iff s.host fun _ pc => pc.Plain).mpr
      ⟨plain_hostStep hmove ?_ (hplain t) hhost, fun u _ => hplain u⟩
    rintro call rfl
    exact hholds
  | worker move =>
    refine ⟨?_, hfair.step tryClaimSlot_proper horderly (workerStep_refines h hsystem)⟩
    obtain ⟨slot', pc', _, heq⟩ := HostSystem.step_worker hsystem
    rw [heq]
    exact hplain

theorem guestFair_step {config : GuestConfig} {base : Nat} {s s' : GuestSystem Tid Pid}
    {h : Ledger Tid} {a : GuestAction Tid Pid} (hplain : ∀ t, (s.guest t).reclaims = false)
    (hfair : Fair Go.tryClaimGuestSlot base s.view h) (hguard : GuestOrderly (s, h) a)
    (hsystem : s.step config a = some s') :
    (∀ t, (s'.guest t).reclaims = false) ∧
      Fair Go.tryClaimGuestSlot base s'.view (recordGuestClaims s a s' h) := by
  obtain ⟨hreclaims, horderly⟩ := hguard
  cases a with
  | guest t move =>
    have hmove : ∀ age, move ≠ .tryReclaim age := by
      rintro age rfl
      cases hreclaims
    refine ⟨?_, hfair.step tryClaimGuestSlot_proper horderly
      (guestStep_refines h hmove (hplain t) hsystem)⟩
    obtain ⟨slot', pc', hguest, heq⟩ := GuestSystem.step_guest hsystem
    rw [heq]
    exact (Function.forall_update_iff s.guest fun _ pc => pc.reclaims = false).mpr
      ⟨reclaims_guestStep hmove (hplain t) hguest, fun u _ => hplain u⟩
  | processor q move =>
    refine ⟨?_, hfair.step tryClaimGuestSlot_proper horderly
      (processorStep_refines h hsystem)⟩
    obtain ⟨slot', pc', _, heq⟩ := GuestSystem.step_processor hsystem
    rw [heq]
    exact hplain

theorem hostFair_reachable {layout : Layout} {start s : HostSystem Tid} {h : Ledger Tid}
    (hstart : start.Initial)
    (hreach : Reachable (recorded (HostSystem.step layout) recordHostClaims) HostOrderly
      (start, .empty) (s, h)) : Fair Cpp.tryClaimSlot start.slot.gen s.view h := by
  refine (hreach.recorded_invariant (fun s h => (∀ t, (s.host t).Plain) ∧
    Fair Cpp.tryClaimSlot start.slot.gen s.view h) ⟨?_, ?_⟩
    fun _ _ _ _ hp hguard hs' => hostFair_step hp.1 hp.2 hguard hs').2
  · intro t
    rw [hstart.idle t]
    trivial
  · exact fair_initial (v := start.view) (fun t => congrArg HostPc.standing (hstart.idle t))
      hstart.gen

theorem guestFair_reachable {config : GuestConfig} {start s : GuestSystem Tid Pid}
    {h : Ledger Tid} (hstart : start.Initial)
    (hreach : Reachable (recorded (GuestSystem.step config) recordGuestClaims) GuestOrderly
      (start, .empty) (s, h)) : Fair Go.tryClaimGuestSlot start.slot.gen s.view h := by
  refine (hreach.recorded_invariant (fun s h => (∀ t, (s.guest t).reclaims = false) ∧
    Fair Go.tryClaimGuestSlot start.slot.gen s.view h) ⟨?_, ?_⟩
    fun _ _ _ _ hp hguard hs' => guestFair_step hp.1 hp.2 hguard hs').2
  · intro t
    rw [hstart.idle t]
    rfl
  · exact fair_initial (v := start.view) (fun t => congrArg GuestPc.standing (hstart.idle t))
      hstart.gen

/-- In an orderly run a claim that is about to succeed through its steal branch
follows the load of the state without another claim in between, and takes the slot
from nobody: not from a thread that awaits its answer, nor from any other owner. -/
theorem steals_follow_sighting :
    (∀ (layout : Layout) (start s : HostSystem Tid) (h : Ledger Tid), start.Initial →
      Reachable (recorded (HostSystem.step layout) recordHostClaims) HostOrderly
        (start, .empty) (s, h) → FairSteals s.view h) ∧
    (∀ (config : GuestConfig) (start s : GuestSystem Tid Pid) (h : Ledger Tid), start.Initial →
      Reachable (recorded (GuestSystem.step config) recordGuestClaims) GuestOrderly
        (start, .empty) (s, h) → FairSteals s.view h) := by
  refine ⟨?_, ?_⟩
  · intro layout start s h hstart hreach
    exact (hostFair_reachable hstart hreach).steals tryClaimSlot_proper
  · intro config start s h hstart hreach
    exact (guestFair_reachable hstart hreach).steals tryClaimGuestSlot_proper

def hostZombieRun : List (HostAction Bool) :=
  claimRun false ++ sendRun false .acquired ++ [.host false .expire] ++ hostAdvances false 1 ++
    serveRun Bool ++ workerAdvances Bool 4

def guestZombieRun : List (GuestAction Bool Unit) :=
  guestCallRun Unit false ++ [.guest false .expire] ++ guestAdvances Unit false 1 ++
    processRun Bool ()

def hostWinRun : List (HostAction Bool) :=
  .host true .tryClaim :: hostAdvances true 3

def guestWinRun : List (GuestAction Bool Unit) :=
  .guest true (.call ⟨[2], .normal⟩) :: guestAdvances Unit true 3

def hostOvertakeRun : List (HostAction Bool) :=
  hostZombieRun ++ hostWinRun ++ [.host false .tryClaim] ++ hostAdvances false 5 ++
    sendRun false .acquired ++ serveRun Bool ++ workerAdvances Bool 4

def guestOvertakeRun : List (GuestAction Bool Unit) :=
  guestZombieRun ++ guestWinRun ++ [.guest false (.call ⟨[1], .normal⟩)] ++
    guestAdvances Unit false 13 ++ processRun Bool ()

/-- Without order the late swap takes the slot from a thread that awaits its answer. -/
theorem steal_overtakes_claim :
    (¬ ∀ s h, Reachable (recorded (HostSystem.step ⟨true, 1⟩) recordHostClaims)
      (fun _ a => a.reclaims = false ∧ a.holds = false) (smallStart Bool, .empty) (s, h) →
      FairSteals s.view h) ∧
    (¬ ∀ s h, Reachable (recorded (GuestSystem.step ⟨⟨true, 1⟩, false, false⟩) recordGuestClaims)
      (fun _ a => a.reclaims = false) (smallGuestStart Bool Unit, .empty) (s, h) →
      FairSteals s.view h) := by
  refine ⟨?_, ?_⟩
  · intro hall
    obtain ⟨p, hreach, htest⟩ := exists_reachable_of_exec
      (recorded (HostSystem.step ⟨true, 1⟩) recordHostClaims)
      (fun _ a => a.reclaims = false ∧ a.holds = false) (smallStart Bool, .empty)
      (fun _ a => !a.reclaims && !a.holds) (fun _ _ hcheck => by simpa using hcheck)
      hostOvertakeRun
      (fun p => p.1.view.seat true = .claiming (.casState .respReady) &&
        p.1.slot.state = .respReady && p.1.view.phase false = .awaiting) (by decide)
    simp only [Bool.and_eq_true, decide_eq_true_eq] at htest
    have hunowned := (hall p.1 p.2 hreach true .respReady htest.1.1 htest.1.2).2 false
    rw [htest.2] at hunowned
    cases hunowned
  · intro hall
    obtain ⟨p, hreach, htest⟩ := exists_reachable_of_exec
      (recorded (GuestSystem.step ⟨⟨true, 1⟩, false, false⟩) recordGuestClaims)
      (fun _ a => a.reclaims = false) (smallGuestStart Bool Unit, .empty)
      (fun _ a => !a.reclaims) (fun _ _ hcheck => by simpa using hcheck) guestOvertakeRun
      (fun p => p.1.view.seat true = .claiming (.casState .respReady) &&
        p.1.slot.state = .respReady && p.1.view.phase false = .awaiting) (by decide)
    simp only [Bool.and_eq_true, decide_eq_true_eq] at htest
    have hunowned := (hall p.1 p.2 hreach true .respReady htest.1.1 htest.1.2).2 false
    rw [htest.2] at hunowned
    cases hunowned

/-- Of two threads the other one is away. -/
def actsAlone (v : Tenancy Bool) (h : Ledger Bool) (actor : Option Bool) : Bool :=
  h.bumps < genPeriod && actor.all fun t => v.seat (!t) = .tenant .outside

theorem orderly_of_actsAlone {rules : ClaimRules} {v : Tenancy Bool} {h : Ledger Bool}
    {actor : Option Bool} (hcheck : actsAlone v h actor = true) : Orderly rules v h actor := by
  simp only [actsAlone, Bool.and_eq_true, decide_eq_true_eq, Option.all_eq_true] at hcheck
  refine orderly_of_alone ?_ hcheck.1
  intro t hactor u hu
  rw [show u = !t from Bool.eq_not_of_ne hu]
  exact hcheck.2 t hactor

/-- The zombie is recycled while its former owner is away. -/
theorem steals_follow_sighting_zombie :
    (∃ p : HostSystem Bool × Ledger Bool,
      p.1.view.seat true = .claiming (.casState .respReady) ∧ p.1.slot.state = .respReady ∧
        FairSteals p.1.view p.2) ∧
    (∃ p : GuestSystem Bool Unit × Ledger Bool,
      p.1.view.seat true = .claiming (.casState .respReady) ∧ p.1.slot.state = .respReady ∧
        FairSteals p.1.view p.2) := by
  obtain ⟨hhost, hguest⟩ := @steals_follow_sighting Bool Unit _ _
  refine ⟨?_, ?_⟩
  · obtain ⟨p, hreach, htest⟩ := exists_reachable_of_exec
      (recorded (HostSystem.step ⟨true, 1⟩) recordHostClaims) HostOrderly
      (smallStart Bool, .empty)
      (fun p a => (!a.reclaims && !a.holds) && actsAlone p.1.view p.2 a.actor)
      (by
        intro p a hcheck
        simp only [Bool.and_eq_true, Bool.not_eq_true'] at hcheck
        exact ⟨hcheck.1, orderly_of_actsAlone hcheck.2⟩)
      (hostZombieRun ++ hostWinRun)
      (fun p => p.1.view.seat true = .claiming (.casState .respReady) &&
        p.1.slot.state = .respReady) (by decide)
    simp only [Bool.and_eq_true, decide_eq_true_eq] at htest
    exact ⟨p, htest.1, htest.2, hhost ⟨true, 1⟩ (smallStart Bool) p.1 p.2
      (smallStart_initial Bool) hreach⟩
  · obtain ⟨p, hreach, htest⟩ := exists_reachable_of_exec
      (recorded (GuestSystem.step ⟨⟨true, 1⟩, false, false⟩) recordGuestClaims) GuestOrderly
      (smallGuestStart Bool Unit, .empty)
      (fun p a => !a.reclaims && actsAlone p.1.view p.2 a.actor)
      (by
        intro p a hcheck
        simp only [Bool.and_eq_true, Bool.not_eq_true'] at hcheck
        exact ⟨hcheck.1, orderly_of_actsAlone hcheck.2⟩)
      (guestZombieRun ++ guestWinRun)
      (fun p => p.1.view.seat true = .claiming (.casState .respReady) &&
        p.1.slot.state = .respReady) (by decide)
    simp only [Bool.and_eq_true, decide_eq_true_eq] at htest
    exact ⟨p, htest.1, htest.2, hguest ⟨⟨true, 1⟩, false, false⟩ (smallGuestStart Bool Unit) p.1 p.2
      (smallGuestStart_initial Bool Unit) hreach⟩

end ShmIpc.Slots
