import ShmIpc.Slots.GuestSystem
import ShmIpc.Slots.Takeover

/-!
Guest slots refine the abstract takeovers. Every step of a goroutine that does not
reclaim, and every step of a processor, is a step of the abstract system with the
same record in the ledger.
-/

namespace ShmIpc.Slots

open Library

variable {Tid Pid : Type}

def GuestSystem.view (s : GuestSystem Tid Pid) : Tenancy Tid where
  slot := s.slot
  seat t := (s.guest t).standing

def GuestAction.actor : GuestAction Tid Pid → Option Tid
  | .guest t _ => some t
  | .processor _ _ => none

def GuestAction.reclaims : GuestAction Tid Pid → Bool
  | .guest _ (.tryReclaim _) => true
  | _ => false

def GuestPc.reclaims : GuestPc → Bool
  | .reclaiming _ => true
  | _ => false

theorem reclaims_guestStep {config : GuestConfig} {s s' : Slot} {pc pc' : GuestPc}
    {move : GuestMove} (hmove : ∀ age, move ≠ .tryReclaim age) (hpc : pc.reclaims = false)
    (h : guestStep config s pc move = some (s', pc')) : pc'.reclaims = false := by
  revert h hpc
  fun_cases guestStep config s pc move with
  | case1 | case2 | case8 => intro _ h; cases h; rfl
  | case3 age => exact absurd rfl (hmove age)
  | case4 call pc now r =>
    intro _ h
    cases h
    cases r.2 with
    | running => rfl
    | returned ok => cases ok with
      | true => rfl
      | false => rfl
  | case5 => intro hpc; cases hpc
  | case6 call pc now r =>
    intro _ h
    cases h
    cases r.2 with
    | running | returned => rfl
  | case7 | case9 => intro _ h; cases h

variable [DecidableEq Tid]

/-- What the next action of a goroutine adds to the ledger of claims. -/
def Ledger.advance (h : Ledger Tid) (t : Tid) (s : Slot) : GuestPc → Ledger Tid
  | .claiming _ pc => h.record t s pc
  | .sending _ (.bumpGen _) => h.tick
  | _ => h

def recordGuestClaims (s : GuestSystem Tid Pid) (a : GuestAction Tid Pid)
    (_ : GuestSystem Tid Pid) (h : Ledger Tid) : Ledger Tid :=
  match a with
  | .guest t (.call call) => if call.data.length < 2 ^ 31 then h.note t else h
  | .guest t (.advance _) => h.advance t s.slot (s.guest t)
  | .processor p (.advance _) => if s.processor p = .bumpGen then h.tick else h
  | _ => h

theorem GuestSystem.view_update (s : GuestSystem Tid Pid) (slot' : Slot) (t : Tid)
    (pc' : GuestPc) :
    GuestSystem.view { s with slot := slot', guest := Function.update s.guest t pc' } =
      ⟨slot', Function.update s.view.seat t pc'.standing⟩ := by
  simp only [GuestSystem.view, Tenancy.mk.injEq, true_and]
  funext u
  exact Function.apply_update (fun _ => GuestPc.standing) s.guest t pc' u

theorem guestSend_refines {config : GuestConfig} {s : GuestSystem Tid Pid} {t : Tid}
    {call : GuestCall} {pc : GuestSendPc} (h : Ledger Tid) (now : Nat)
    (hpc : s.guest t = .sending call pc) :
    TenancyStep Go.tryClaimGuestSlot s.view h (some t)
      ⟨(guestSendStep config now s.slot call pc).1,
        Function.update s.view.seat t (.tenant (guestSendStep config now s.slot call pc).2.phase)⟩
      (h.advance t s.slot (.sending call pc)) := by
  have hseat : s.view.seat t = .tenant pc.phase := congrArg GuestPc.standing hpc
  by_cases hbump : ∃ seq, pc = .bumpGen seq
  · obtain ⟨seq, rfl⟩ := hbump
    simp only [guestSendStep]
    rw [show Standing.tenant (GuestProgress.running (.consume seq)).phase = s.view.seat t from
      hseat.symm, Function.update_eq_self]
    exact .tick (some t)
  · have hrecord : h.advance t s.slot (.sending call pc) = h := by
      cases pc with
      | bumpGen seq => exact absurd ⟨seq, rfl⟩ hbump
      | _ => rfl
    rw [hrecord]
    refine .act t _ _ _ hseat ?_ (guestSend_keeps config now s.slot call pc)
    exact guestSend_change config now s.slot call pc (fun seq heq => hbump ⟨seq, heq⟩)

variable [DecidableEq Pid]

theorem guestStep_refines {config : GuestConfig} {s s' : GuestSystem Tid Pid} {t : Tid}
    {move : GuestMove} (h : Ledger Tid) (hmove : ∀ age, move ≠ .tryReclaim age)
    (hpc : (s.guest t).reclaims = false) (hstep : s.step config (.guest t move) = some s') :
    TenancyStep Go.tryClaimGuestSlot s.view h (some t) s'.view
      (recordGuestClaims s (.guest t move) s' h) := by
  obtain ⟨slot', pc', hguest, rfl⟩ := GuestSystem.step_guest hstep
  rw [GuestSystem.view_update]
  have hstay : ∀ {p : Phase}, s.view.seat t = .tenant p → TenancyStep Go.tryClaimGuestSlot s.view h
      (some t) ⟨s.slot, Function.update s.view.seat t (.tenant p)⟩ h :=
    fun hseat => .act t _ _ _ hseat (.stay _) id
  cases hp : s.guest t with
  | idle =>
    rw [hp] at hguest
    cases move with
    | call call =>
      simp only [guestStep] at hguest
      simp only [recordGuestClaims]
      split at hguest
      case isTrue hsize =>
        cases hguest
        rw [if_pos hsize]
        exact .start t (congrArg GuestPc.standing hp)
      case isFalse hsize =>
        cases hguest
        rw [if_neg hsize]
        exact hstay (congrArg GuestPc.standing hp)
    | tryReclaim age => exact absurd rfl (hmove age)
    | _ => cases hguest
  | claiming call pc =>
    rw [hp] at hguest
    cases move with
    | advance now =>
      cases hguest
      rw [guestStanding_afterClaim]
      simp only [recordGuestClaims, hp]
      exact .claim t now pc (congrArg GuestPc.standing hp)
    | _ => cases hguest
  | reclaiming pc => rw [hp] at hpc; cases hpc
  | sending call pc =>
    rw [hp] at hguest
    cases move with
    | advance now =>
      cases hguest
      rw [guestStanding_afterSend]
      simp only [recordGuestClaims, hp]
      exact guestSend_refines h now hp
    | expire =>
      cases pc with
      | waiting seq =>
        simp only [guestStep] at hguest
        split at hguest
        · cases hguest
        · cases hguest
          exact hstay (congrArg GuestPc.standing hp)
      | _ => cases hguest
    | _ => cases hguest

theorem processorStep_refines {config : GuestConfig} {s s' : GuestSystem Tid Pid} {p : Pid}
    {move : ProcessorMove} (h : Ledger Tid)
    (hstep : s.step config (.processor p move) = some s') :
    TenancyStep Go.tryClaimGuestSlot s.view h none s'.view
      (recordGuestClaims s (.processor p move) s' h) := by
  obtain ⟨slot', pc', hprocessor, rfl⟩ := GuestSystem.step_processor hstep
  by_cases hpc : s.processor p = .bumpGen
  · rw [hpc] at hprocessor
    cases move with
    | advance now =>
      cases hprocessor
      simp only [recordGuestClaims, hpc, if_true]
      exact .tick none
    | _ => cases hprocessor
  · have hrecord : recordGuestClaims s (.processor p move)
        { s with slot := slot', processor := Function.update s.processor p pc' } h = h := by
      cases move with
      | advance now => simp only [recordGuestClaims, hpc, if_false]
      | _ => rfl
    rw [hrecord]
    have hchange := processorStep_change hprocessor
    exact .peer slot' hchange.peer (hchange.gen_eq hpc)

end ShmIpc.Slots
