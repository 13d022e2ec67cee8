import Mathlib.Logic.Function.Basic
import ShmIpc.Slots.Claim

/-!
The life of a tenancy, the same on both sides of the channel. A claim that lands
makes its thread the owner of the slot. The owner prepares a request, raises its
flag, publishes, awaits the answer, consumes it and gives the slot back; a sender
on the fast path instead drops its flag first and then releases the slot by a swap
that may fail. The other side moves a published request to its answer.

Ownership is exclusive as long as no claim lands on an owned slot and nobody
publishes while a release is still to come.
-/

namespace ShmIpc.Slots

inductive Phase
  | outside
  | preparing
  | armed
  | awaiting
  | ready
  | consuming
  | releasing
  deriving DecidableEq

def Phase.owns : Phase → Bool
  | .outside | .releasing => false
  | _ => true

/-- The phases in which the owner keeps its flag up. -/
def Phase.flagged : Phase → Bool
  | .armed | .awaiting | .ready => true
  | _ => false

theorem Phase.owns_of_flagged {p : Phase} (h : p.flagged = true) : p.owns = true := by
  cases p with
  | armed | awaiting | ready => rfl
  | _ => cases h

/-- Where a thread stands with respect to the slot. -/
inductive Standing
  | claiming (pc : ClaimPc)
  | tenant (phase : Phase)
  deriving DecidableEq

def Standing.phase : Standing → Phase
  | .claiming .storeLease => .preparing
  | .claiming _ => .outside
  | .tenant phase => phase

def Standing.claim : Standing → Option ClaimPc
  | .claiming pc => some pc
  | .tenant _ => none

def Standing.afterClaim : Progress ClaimPc → Standing
  | .running pc => .claiming pc
  | .returned true => .tenant .preparing
  | .returned false => .tenant .outside

/-- The state in which the other side works on a request. -/
def ClaimRules.peer (rules : ClaimRules) : SlotState :=
  match rules.claimed with
  | .busy => .guestBusy
  | _ => .busy

/-- A claimed slot is parked in one of the two busy states; it is not stolen from
there, nor from the publish lock. -/
structure ClaimRules.Proper (rules : ClaimRules) : Prop where
  claimed : rules.claimed = .busy ∨ rules.claimed = .guestBusy
  keeps : rules.stealable rules.claimed = false
  free : rules.stealable .free = false
  done : rules.stealable .done = false

theorem tryClaimSlot_proper : Cpp.tryClaimSlot.Proper := ⟨.inl rfl, rfl, rfl, rfl⟩

theorem tryClaimGuestSlot_proper : Go.tryClaimGuestSlot.Proper := ⟨.inr rfl, rfl, rfl, rfl⟩

/-- The states a slot can be in while a thread is in the given phase. -/
def Phase.Allows (rules : ClaimRules) : Phase → SlotState → Prop
  | .outside, _ => True
  | .preparing, st | .armed, st | .consuming, st => st = rules.claimed
  | .awaiting, st => st = .reqReady ∨ st = rules.peer ∨ st = .done ∨ st = .respReady
  | .ready, st => st = .respReady
  | .releasing, st => st = .respReady ∨ st = rules.claimed ∨ st = .free

/-- The phases in which the owner keeps the slot parked and its request to itself. -/
def Phase.Parked (p : Phase) : Prop := p = .preparing ∨ p = .consuming

theorem Phase.Parked.owns {p : Phase} (h : p.Parked) : p.owns = true := by
  cases h with
  | inl h => rw [h]; rfl
  | inr h => rw [h]; rfl

theorem Phase.Parked.state_eq {rules : ClaimRules} {p : Phase} {st : SlotState} (h : p.Parked)
    (hallows : p.Allows rules st) : st = rules.claimed := by
  cases h with
  | inl h => rw [h] at hallows; exact hallows
  | inr h => rw [h] at hallows; exact hallows

/-- What a step of a claim does to the slot. -/
inductive ClaimChange (rules : ClaimRules) (s : Slot) :
    ClaimPc → Progress ClaimPc → Slot → Prop
  | look (pc : ClaimPc) (r : Progress ClaimPc) (gen : Nat)
      (h : (Standing.claiming pc).phase = .outside)
      (h' : (Standing.afterClaim r).phase = .outside) :
      ClaimChange rules s pc r { s with gen := gen }
  | claimFree (h : s.state = .free) :
      ClaimChange rules s .casFree (.running .storeLease) { s with state := rules.claimed }
  | steal (current : SlotState) (h : s.state = current) :
      ClaimChange rules s (.casState current) (.running .storeLease)
        { s with state := rules.claimed }
  | lease (now : Nat) : ClaimChange rules s .storeLease (.returned true) { s with lease := now }

theorem claim_change (rules : ClaimRules) (now : Nat) (s : Slot) (pc : ClaimPc) :
    ClaimChange rules s pc (rules.step now s pc).2 (rules.step now s pc).1 := by
  cases pc with
  | loadState g =>
    simp only [ClaimRules.step]
    split
    · exact .look _ _ s.gen rfl rfl
    · split
      · exact .look _ _ s.gen rfl rfl
      · exact .look _ _ s.gen rfl rfl
  | bumpGen => exact .look _ _ _ rfl rfl
  | casFree =>
    simp only [ClaimRules.step]
    split
    case isTrue h => exact .claimFree h
    case isFalse h => exact .look _ _ s.gen rfl rfl
  | loadActiveWait g current =>
    simp only [ClaimRules.step]
    split
    · exact .look _ _ s.gen rfl rfl
    · exact .look _ _ s.gen rfl rfl
  | casGen g current =>
    simp only [ClaimRules.step]
    split
    · exact .look _ _ _ rfl rfl
    · exact .look _ _ s.gen rfl rfl
  | casState current =>
    simp only [ClaimRules.step]
    split
    case isTrue h => exact .steal current h
    case isFalse h => exact .look _ _ s.gen rfl rfl
  | storeLease => exact .lease now

/-- A claim steals only from states it may steal from. -/
def ClaimPc.Lawful (rules : ClaimRules) : ClaimPc → Prop
  | .loadActiveWait _ current | .casGen _ current | .casState current =>
    rules.stealable current = true
  | _ => True

def Standing.Lawful (rules : ClaimRules) : Standing → Prop
  | .claiming pc => pc.Lawful rules
  | .tenant _ => True

theorem lawful_claim (rules : ClaimRules) (now : Nat) (s : Slot) (pc : ClaimPc)
    (h : pc.Lawful rules) : (Standing.afterClaim (rules.step now s pc).2).Lawful rules := by
  cases pc with
  | loadState g =>
    simp only [ClaimRules.step]
    split
    · trivial
    · split
      case isTrue hsteal => exact hsteal
      case isFalse _ => trivial
  | bumpGen | storeLease => trivial
  | casFree | casState =>
    simp only [ClaimRules.step]
    split
    · trivial
    · trivial
  | loadActiveWait g current =>
    simp only [ClaimRules.step]
    split
    · trivial
    · exact h
  | casGen g current =>
    simp only [ClaimRules.step]
    split
    · exact h
    · trivial

/-- What an action of a tenant does to the slot, by the phase it is in. None of them
touches the generation. -/
inductive PhaseChange (rules : ClaimRules) (s : Slot) : Phase → Phase → Slot → Prop
  | stay (p : Phase) : PhaseChange rules s p p s
  | prepare (s' : Slot) (hstate : s'.state = s.state) (hgen : s'.gen = s.gen) :
      PhaseChange rules s .preparing .preparing s'
  | raise : PhaseChange rules s .preparing .armed { s with activeWait := true }
  | publish : PhaseChange rules s .armed .awaiting { s with state := .reqReady }
  | reraise : PhaseChange rules s .awaiting .awaiting { s with activeWait := true }
  | sees (h : s.state = .respReady) : PhaseChange rules s .awaiting .ready s
  | consume : PhaseChange rules s .ready .consuming { s with state := rules.claimed }
  | lose (h : s.state ≠ .respReady) : PhaseChange rules s .ready .awaiting s
  | drop : PhaseChange rules s .ready .releasing { s with activeWait := false }
  | giveUp : PhaseChange rules s .awaiting .outside { s with activeWait := false }
  | settle (p : Phase) (flag : Bool) (lease : Nat) (h : p.Parked) :
      PhaseChange rules s p .consuming { s with activeWait := flag, lease := lease }
  | keep (p : Phase) (h : p.Parked) : PhaseChange rules s p .preparing s
  | free (p : Phase) (h : p.Parked) : PhaseChange rules s p .outside { s with state := .free }
  | freeLost (p : Phase) (h : p.Parked) (hstate : s.state ≠ rules.claimed) :
      PhaseChange rules s p .outside s
  | release (h : s.state = .respReady) :
      PhaseChange rules s .releasing .outside { s with state := .free }
  | releaseLost (h : s.state ≠ .respReady) : PhaseChange rules s .releasing .outside s

theorem PhaseChange.flag {rules : ClaimRules} {s s' : Slot} {p p' : Phase}
    (h : PhaseChange rules s p p' s') (hflag : p.flagged = true → s.activeWait = true)
    (hp' : p'.flagged = true) : s'.activeWait = true := by
  cases h with
  | stay => exact hflag hp'
  | raise | reraise => rfl
  | publish | sees | lose => exact hflag rfl
  | prepare | consume | drop | giveUp | settle | keep | free | freeLost | release
  | releaseLost => cases hp'

theorem PhaseChange.flag_eq {rules : ClaimRules} {s s' : Slot} {p p' : Phase}
    (h : PhaseChange rules s p p' s') (hp : p.owns = false) : s'.activeWait = s.activeWait := by
  cases h with
  | stay | keep | free | freeLost | release | releaseLost => rfl
  | settle _ _ _ hparked =>
    rw [hparked.owns] at hp
    cases hp
  | _ => cases hp

theorem ClaimChange.flag_eq {rules : ClaimRules} {s s' : Slot} {pc : ClaimPc}
    {r : Progress ClaimPc} (h : ClaimChange rules s pc r s') : s'.activeWait = s.activeWait := by
  cases h with
  | look | claimFree | steal | lease => rfl

/-- What an action of the other side does to the slot. -/
inductive PeerChange (rules : ClaimRules) (s : Slot) : Slot → Prop
  | quiet (s' : Slot) (hstate : s'.state = s.state) (hflag : s'.activeWait = s.activeWait) :
      PeerChange rules s s'
  | take (h : s.state = .reqReady) : PeerChange rules s { s with state := rules.peer }
  | lock (h : s.state = rules.peer) : PeerChange rules s { s with state := .done }
  | answer (h : s.state = .done) : PeerChange rules s { s with state := .respReady }

theorem PeerChange.flag_eq {rules : ClaimRules} {s s' : Slot} (h : PeerChange rules s s') :
    s'.activeWait = s.activeWait := by
  cases h with
  | quiet _ _ hflag => exact hflag
  | take | lock | answer => rfl

variable {Tid : Type}

/-- At most one thread owns the slot, its phase determines the states the slot can be
in, and a slot with an answer that is about to be released has no owner. -/
structure Possession (rules : ClaimRules) (st : SlotState) (phase : Tid → Phase) : Prop where
  exclusive : ∀ t u, (phase t).owns = true → (phase u).owns = true → t = u
  allows : ∀ t, (phase t).Allows rules st
  vacant : ∀ t, phase t = .releasing → st = .respReady → ∀ u, (phase u).owns = false

variable {rules : ClaimRules} {st : SlotState} {phase : Tid → Phase}

theorem Possession.others (h : Possession rules st phase) {t : Tid} (ht : (phase t).owns = true)
    (u : Tid) (hu : u ≠ t) : (phase u).owns = false := by
  cases hown : (phase u).owns with
  | false => rfl
  | true => exact absurd (h.exclusive u t hown ht) hu

theorem ClaimRules.Proper.distinct (hr : rules.Proper) : rules.claimed ≠ .free ∧
    rules.claimed ≠ .reqReady ∧ rules.claimed ≠ .done ∧ rules.claimed ≠ .respReady ∧
    rules.claimed ≠ rules.peer := by
  unfold ClaimRules.peer
  cases hr.claimed with
  | inl h => rw [h]; exact ⟨nofun, nofun, nofun, nofun, nofun⟩
  | inr h => rw [h]; exact ⟨nofun, nofun, nofun, nofun, nofun⟩

theorem ClaimRules.Proper.peer_ne (hr : rules.Proper) : rules.peer ≠ .free ∧
    rules.peer ≠ .reqReady ∧ rules.peer ≠ .done ∧ rules.peer ≠ .respReady := by
  unfold ClaimRules.peer
  cases hr.claimed with
  | inl h => rw [h]; exact ⟨nofun, nofun, nofun, nofun⟩
  | inr h => rw [h]; exact ⟨nofun, nofun, nofun, nofun⟩

theorem Phase.unowned_of_free {p : Phase} (hr : rules.Proper) (h : p.Allows rules .free) :
    p.owns = false := by
  cases p with
  | outside | releasing => rfl
  | preparing | armed | consuming => exact absurd h.symm hr.distinct.1
  | awaiting =>
    obtain hst | hst | hst | hst := h
    · cases hst
    · exact absurd hst.symm hr.peer_ne.1
    · cases hst
    · cases hst
  | ready => cases h

theorem ClaimChange.done {s s' : Slot} {pc : ClaimPc} {r : Progress ClaimPc} (hr : rules.Proper)
    (hlawful : pc.Lawful rules) (hchange : ClaimChange rules s pc r s') (h : s.state = .done) :
    s'.state = .done := by
  cases hchange with
  | look | lease => exact h
  | claimFree hs => rw [h] at hs; cases hs
  | steal current hs =>
    have hsteal : rules.stealable current = true := hlawful
    rw [← hs, h, hr.done] at hsteal
    cases hsteal

theorem PhaseChange.done {s s' : Slot} {p p' : Phase} (hr : rules.Proper)
    (hallows : p.Allows rules s.state) (hchange : PhaseChange rules s p p' s')
    (h : s.state = .done) : s'.state = .done := by
  have hclaimed : s.state ≠ rules.claimed := by
    rw [h]
    exact hr.distinct.2.2.1.symm
  have hresp : s.state ≠ .respReady := by
    rw [h]
    nofun
  cases hchange with
  | prepare _ hstate => exact hstate.trans h
  | publish => exact absurd hallows hclaimed
  | consume => exact absurd hallows hresp
  | free _ hparked => exact absurd (hparked.state_eq hallows) hclaimed
  | release hs => exact absurd hs hresp
  | stay | raise | reraise | sees | lose | drop | giveUp | settle | keep | freeLost
  | releaseLost => exact h

/-- The other side moves the slot only under a thread that awaits the answer, or has
given up on it. -/
theorem Phase.allows_of_moved {p : Phase} {st' : SlotState} (hr : rules.Proper)
    (h : p.Allows rules st) (hold : st = .reqReady ∨ st = rules.peer ∨ st = .done)
    (hnew : st' = rules.peer ∨ st' = .done ∨ st' = .respReady) :
    p ≠ .releasing ∧ p.Allows rules st' := by
  have hclaimed : st ≠ rules.claimed := by
    rintro rfl
    obtain ho | ho | ho := hold
    · exact hr.distinct.2.1 ho
    · exact hr.distinct.2.2.2.2 ho
    · exact hr.distinct.2.2.1 ho
  have hresp : st ≠ .respReady := by
    rintro rfl
    obtain ho | ho | ho := hold
    · cases ho
    · exact hr.peer_ne.2.2.2 ho.symm
    · cases ho
  have hfree : st ≠ .free := by
    rintro rfl
    obtain ho | ho | ho := hold
    · cases ho
    · exact hr.peer_ne.1 ho.symm
    · cases ho
  cases p with
  | outside => exact ⟨nofun, trivial⟩
  | awaiting => exact ⟨nofun, .inr hnew⟩
  | preparing | armed | consuming => exact absurd h hclaimed
  | ready => exact absurd h hresp
  | releasing =>
    obtain hs | hs | hs := h
    · exact absurd hs hresp
    · exact absurd hs hclaimed
    · exact absurd hs hfree

theorem Possession.peer {s s' : Slot} (hr : rules.Proper) (h : Possession rules s.state phase)
    (hchange : PeerChange rules s s') : Possession rules s'.state phase := by
  have hmoved : ∀ st, (s.state = .reqReady ∨ s.state = rules.peer ∨ s.state = .done) →
      (st = rules.peer ∨ st = .done ∨ st = .respReady) → Possession rules st phase := by
    intro st hold hnew
    have hkept := fun t => Phase.allows_of_moved hr (h.allows t) hold hnew
    exact ⟨h.exclusive, fun t => (hkept t).2, fun t ht => absurd ht (hkept t).1⟩
  cases hchange with
  | quiet _ hstate => rw [hstate]; exact h
  | take hs => exact hmoved _ (.inl hs) (.inl rfl)
  | lock hs => exact hmoved _ (.inr (.inl hs)) (.inr (.inl rfl))
  | answer hs => exact hmoved _ (.inr (.inr hs)) (.inr (.inr rfl))

variable [DecidableEq Tid]

theorem Possession.alone {st' : SlotState} {t : Tid} {p' : Phase}
    (hothers : ∀ u, u ≠ t → (phase u).owns = false) (hallows : p'.Allows rules st')
    (hreleasing : ∀ u, u ≠ t → phase u = .releasing → Phase.releasing.Allows rules st')
    (hst : st' ≠ .respReady) : Possession rules st' (Function.update phase t p') where
  exclusive u v hu hv := by
    have honly : ∀ w, (Function.update phase t p' w).owns = true → w = t := by
      intro w hw
      by_contra hne
      rw [Function.update_of_ne hne, hothers w hne] at hw
      cases hw
    rw [honly u hu, honly v hv]
  allows := by
    refine (Function.forall_update_iff phase fun _ p => p.Allows rules st').mpr ⟨hallows, ?_⟩
    intro u hu
    have hown := hothers u hu
    cases hp : phase u with
    | outside => trivial
    | releasing => exact hreleasing u hu hp
    | _ => rw [hp] at hown; cases hown
  vacant _ _ hs := absurd hs hst

theorem Possession.same {t : Tid} {p' : Phase} (h : Possession rules st phase)
    (howns : p'.owns = true → (phase t).owns = true) (hallows : p'.Allows rules st)
    (hreleasing : p' = .releasing → ∀ u, u ≠ t → (phase u).owns = false) :
    Possession rules st (Function.update phase t p') where
  exclusive u v hu hv := by
    have hold : ∀ w, (Function.update phase t p' w).owns = true → (phase w).owns = true :=
      (Function.forall_update_iff phase fun w p => p.owns = true → (phase w).owns = true).mpr
        ⟨howns, fun _ _ h => h⟩
    exact h.exclusive u v (hold u hu) (hold v hv)
  allows := (Function.forall_update_iff phase fun _ p => p.Allows rules st).mpr
    ⟨hallows, fun u _ => h.allows u⟩
  vacant u hu hs := by
    refine (Function.forall_update_iff phase fun _ p => p.owns = false).mpr ?_
    by_cases ht : u = t
    · subst ht
      rw [Function.update_self] at hu
      exact ⟨by rw [hu]; rfl, hreleasing hu⟩
    · rw [Function.update_of_ne ht] at hu
      have hnone := h.vacant u hu hs
      refine ⟨?_, fun v _ => hnone v⟩
      cases hp : p'.owns with
      | false => rfl
      | true =>
        have hold := howns hp
        rw [hnone t] at hold
        cases hold

theorem Possession.land {t : Tid} {p' : Phase} (hr : rules.Proper)
    (hothers : ∀ u, u ≠ t → (phase u).owns = false) (hallows : p'.Allows rules rules.claimed) :
    Possession rules rules.claimed (Function.update phase t p') :=
  .alone hothers hallows (fun _ _ _ => .inr (.inl rfl)) hr.distinct.2.2.2.1

theorem Possession.away {t : Tid} (h : Possession rules st phase) :
    Possession rules st (Function.update phase t .outside) :=
  h.same nofun trivial nofun

theorem Possession.claim {s s' : Slot} {t : Tid} {pc : ClaimPc} {r : Progress ClaimPc}
    (hr : rules.Proper) (h : Possession rules s.state phase)
    (hp : phase t = (Standing.claiming pc).phase)
    (hexcl : ∀ current, pc = .casState current → s.state = current →
      ∀ u, u ≠ t → (phase u).owns = false)
    (hchange : ClaimChange rules s pc r s') :
    Possession rules s'.state (Function.update phase t (Standing.afterClaim r).phase) := by
  cases hchange with
  | look _ _ gen _ h' =>
    rw [h']
    exact h.away
  | claimFree hfree =>
    refine Possession.land hr ?_ rfl
    intro u _
    exact Phase.unowned_of_free hr (hfree ▸ h.allows u)
  | steal current hcurrent => exact Possession.land hr (hexcl current rfl hcurrent) rfl
  | lease now =>
    rw [show (Standing.afterClaim (.returned true)).phase = phase t from hp.symm,
      Function.update_eq_self]
    exact h

/-- An action of a tenant keeps ownership exclusive, if it does not publish while
another thread still has to release the slot. -/
theorem Possession.change {s s' : Slot} {t : Tid} {p p' : Phase} (hr : rules.Proper)
    (h : Possession rules s.state phase) (hp : phase t = p)
    (hpost : p = .armed → ∀ u, u ≠ t → phase u ≠ .releasing)
    (hchange : PhaseChange rules s p p' s') :
    Possession rules s'.state (Function.update phase t p') := by
  have hallows : p.Allows rules s.state := hp ▸ h.allows t
  have hothers : p.owns = true → ∀ u, u ≠ t → (phase u).owns = false :=
    fun hown => h.others (hp ▸ hown)
  have hsame : ∀ {q : Phase}, p.owns = true → q.Allows rules s.state →
      Possession rules s.state (Function.update phase t q) := by
    intro q hown hq
    exact h.same (fun _ => hp ▸ hown) hq (fun _ => hothers hown)
  cases hchange with
  | stay =>
    rw [← hp, Function.update_eq_self]
    exact h
  | prepare _ hstate =>
    rw [hstate]
    exact hsame rfl hallows
  | raise => exact hsame rfl hallows
  | publish =>
    refine Possession.alone (hothers rfl) (.inl rfl) ?_ nofun
    intro u hu hrel
    exact absurd hrel (hpost rfl u hu)
  | reraise => exact hsame rfl hallows
  | sees hs => exact hsame rfl hs
  | consume => exact Possession.land hr (hothers rfl) rfl
  | lose hs => exact absurd hallows hs
  | drop => exact hsame rfl (.inl hallows)
  | giveUp => exact h.away
  | settle _ flag lease hparked =>
    exact hsame hparked.owns (hparked.state_eq hallows)
  | keep _ hparked => exact hsame hparked.owns (hparked.state_eq hallows)
  | free _ hparked =>
    exact Possession.alone (hothers hparked.owns) trivial (fun _ _ _ => .inr (.inr rfl)) nofun
  | freeLost => exact h.away
  | release hs =>
    refine Possession.alone ?_ trivial (fun _ _ _ => .inr (.inr rfl)) nofun
    intro u _
    exact h.vacant t hp hs u
  | releaseLost => exact h.away

end ShmIpc.Slots
