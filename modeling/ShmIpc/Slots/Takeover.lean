import ShmIpc.Slots.ClaimLedger
import ShmIpc.Slots.Tenancy

/-!
Takeovers of a shared slot as one abstract system: threads that claim the slot and
then live through a tenancy, and the other side that answers. The host slots and
the guest slots both refine it.

The generation does not order a steal completely. A claim that has advanced the
generation and not yet swapped the state is invisible to a later one, and a state
that comes round again lets a late swap succeed. The results here are for orderly
runs, in which neither overlap happens.
-/

namespace ShmIpc.Slots

variable {Tid : Type}

structure Tenancy (Tid : Type) where
  slot : Slot
  seat : Tid → Standing

def Tenancy.phase (v : Tenancy Tid) (t : Tid) : Phase := (v.seat t).phase

def Tenancy.claim (v : Tenancy Tid) (t : Tid) : Option ClaimPc := (v.seat t).claim

/-- What an orderly step of the given thread, or of the other side, has to respect. -/
structure Orderly (rules : ClaimRules) (v : Tenancy Tid) (h : Ledger Tid)
    (actor : Option Tid) : Prop where
  /-- No thread sees a state to steal from while another one is between its advance
  of the generation and its swap of the state. -/
  sighting : ∀ t gen, actor = some t → v.seat t = .claiming (.loadState gen) →
    rules.stealable v.slot.state = true →
    ∀ u, u ≠ t → ∀ pc, v.seat u = .claiming pc → pc.pending = false
  /-- The generation does not go all the way round during a claim. -/
  round : ∀ t gen current, actor = some t → v.seat t = .claiming (.casGen gen current) →
    h.bumps - h.snap t < genPeriod
  /-- No thread publishes while another one has won the generation of a steal and not
  yet swapped the state, or has dropped its flag and not yet released the slot. -/
  publishing : ∀ t, actor = some t → v.seat t = .tenant .armed → ∀ u, u ≠ t →
    (∀ current, v.seat u ≠ .claiming (.casState current)) ∧ v.phase u ≠ .releasing

/-- Phases which a claim has ruled out for everybody, as long as no other claim lands. -/
def ClaimPc.Excludes : ClaimPc → Phase → Prop
  | .loadActiveWait _ _, p => p ≠ .preparing ∧ p ≠ .armed
  | .casGen _ _, p | .casState _, p => p ≠ .preparing ∧ p.flagged = false
  | _, _ => True

/-- Since the given number of claims no claim has landed, or the slot is parked or free. -/
def Passed (rules : ClaimRules) (claims mark : Nat) (st : SlotState) : Prop :=
  claims = mark ∨ st = rules.claimed ∨ st = .free

structure Fair (rules : ClaimRules) (base : Nat) (v : Tenancy Tid) (h : Ledger Tid) : Prop where
  lawful : ∀ t, (v.seat t).Lawful rules
  possession : Possession rules v.slot.state v.phase
  tracks : h.Tracks base v.slot v.claim
  seen_le : ∀ t, h.seen t ≤ h.claims
  flagged : ∀ t, (v.phase t).flagged = true → v.slot.activeWait = true
  window : ∀ t current, v.seat t = .claiming (.casState current) →
    Passed rules h.claims (h.seen t) v.slot.state
  sight : ∀ t pc, v.seat t = .claiming pc → h.claims = h.seen t → ∀ u, pc.Excludes (v.phase u)
  deed : ∀ t, (v.phase t).owns = true → h.claims = h.own t
  release : ∀ t, v.phase t = .releasing → Passed rules h.claims (h.own t) v.slot.state

/-- A steal that is about to succeed follows the sighting without another claim in
between, and nobody owns the slot it takes. -/
def FairSteals (v : Tenancy Tid) (h : Ledger Tid) : Prop :=
  ∀ t current, v.seat t = .claiming (.casState current) → v.slot.state = current →
    h.claims = h.seen t ∧ ∀ u, (v.phase u).owns = false

section

variable {rules : ClaimRules} {base : Nat} {v : Tenancy Tid} {h : Ledger Tid}

theorem fair_initial (hidle : ∀ t, v.seat t = .tenant .outside) (hgen : v.slot.gen < genPeriod) :
    Fair rules v.slot.gen v .empty := by
  have hphase : ∀ t, v.phase t = .outside := fun t => congrArg Standing.phase (hidle t)
  have hclaim : ∀ t, v.claim t = none := fun t => congrArg Standing.claim (hidle t)
  have hseat : ∀ t pc, v.seat t ≠ .claiming pc := by
    intro t pc heq
    rw [hidle t] at heq
    cases heq
  refine ⟨?_, ⟨?_, ?_, ?_⟩, ⟨?_, ?_, ?_, ?_⟩, fun _ => Nat.le_refl _, ?_, ?_, ?_, ?_, ?_⟩
  · intro t
    rw [hidle t]
    trivial
  · intro t _ ht
    rw [hphase t] at ht
    cases ht
  · intro t
    rw [hphase t]
    trivial
  · intro t ht
    rw [hphase t] at ht
    cases ht
  · exact (Nat.mod_eq_of_lt hgen).symm
  · intro t pc gen hpc
    rw [hclaim t] at hpc
    cases hpc
  · intro t snap hstage
    have hstage : Ledger.stage .empty (v.claim t) t = .noted snap := hstage
    rw [hclaim t] at hstage
    cases hstage
  · intro t snap seen hstage
    have hstage : Ledger.stage .empty (v.claim t) t = .sighted snap seen := hstage
    rw [hclaim t] at hstage
    cases hstage
  · intro t ht
    rw [hphase t] at ht
    cases ht
  · exact fun t _ heq => absurd heq (hseat t _)
  · exact fun t _ heq => absurd heq (hseat t _)
  · intro t ht
    rw [hphase t] at ht
    cases ht
  · intro t ht
    rw [hphase t] at ht
    cases ht

theorem orderly_of_alone {actor : Option Tid}
    (hothers : ∀ t, actor = some t → ∀ u, u ≠ t → v.seat u = .tenant .outside)
    (hround : h.bumps < genPeriod) : Orderly rules v h actor where
  sighting t _ hactor _ _ u hu pc heq := by
    rw [hothers t hactor u hu] at heq
    cases heq
  round _ _ _ _ _ := Nat.lt_of_le_of_lt (Nat.sub_le _ _) hround
  publishing t hactor _ u hu := by
    have hseat := hothers t hactor u hu
    refine ⟨?_, ?_⟩
    · intro current heq
      rw [hseat] at heq
      cases heq
    · intro hphase
      rw [show v.phase u = .outside from congrArg Standing.phase hseat] at hphase
      cases hphase

theorem Tenancy.seat_of_claim {u : Tid} {pc : ClaimPc} (hclaim : v.claim u = some pc) :
    v.seat u = .claiming pc := by
  unfold Tenancy.claim at hclaim
  cases hseat : v.seat u with
  | claiming pc' =>
    rw [hseat] at hclaim
    cases hclaim
    rfl
  | tenant p =>
    rw [hseat] at hclaim
    cases hclaim

theorem Fair.excludes_of_stealable {gen : Nat} (hr : rules.Proper) (hf : Fair rules base v h)
    (hsteal : rules.stealable v.slot.state = true) (u : Tid) :
    (ClaimPc.loadActiveWait gen v.slot.state).Excludes (v.phase u) := by
  have hnot : v.slot.state ≠ rules.claimed := by
    intro hs
    rw [hs, hr.keeps] at hsteal
    cases hsteal
  have hallows := hf.possession.allows u
  refine ⟨?_, ?_⟩
  · intro hp
    rw [hp] at hallows
    exact hnot hallows
  · intro hp
    rw [hp] at hallows
    exact hnot hallows

theorem Fair.steals (hr : rules.Proper) (hf : Fair rules base v h) : FairSteals v h := by
  intro t current hseat hstate
  have hsteal : rules.stealable current = true := by
    have hlawful := hf.lawful t
    rw [hseat] at hlawful
    exact hlawful
  have hclaimed : v.slot.state ≠ rules.claimed := by
    intro hs
    rw [← hstate, hs, hr.keeps] at hsteal
    cases hsteal
  have hfree : v.slot.state ≠ .free := by
    intro hs
    rw [← hstate, hs, hr.free] at hsteal
    cases hsteal
  have hseen : h.claims = h.seen t := by
    obtain hseen | hs | hs := hf.window t current hseat
    · exact hseen
    · exact absurd hs hclaimed
    · exact absurd hs hfree
  refine ⟨hseen, ?_⟩
  intro u
  obtain ⟨hprep, hflag⟩ := hf.sight t _ hseat hseen u
  have hallows := hf.possession.allows u
  cases hp : v.phase u with
  | outside | releasing => rfl
  | preparing => exact absurd hp hprep
  | armed | awaiting | ready => rw [hp] at hflag; cases hflag
  | consuming =>
    rw [hp] at hallows
    exact absurd hallows hclaimed

theorem Fair.releases (hr : rules.Proper) (hf : Fair rules base v h) {t : Tid}
    (hphase : v.phase t = .releasing) (hstate : v.slot.state = .respReady) :
    h.claims = h.own t := by
  obtain hown | hs | hs := hf.release t hphase
  · exact hown
  · exact absurd (hs.symm.trans hstate) hr.distinct.2.2.2.1
  · rw [hstate] at hs
    cases hs

theorem Passed.peer {claims mark : Nat} {s s' : Slot} (hr : rules.Proper)
    (h : Passed rules claims mark s.state) (hchange : PeerChange rules s s') :
    Passed rules claims mark s'.state := by
  obtain hmark | hst := h
  · exact .inl hmark
  · have hnot : ∀ st, st = .reqReady ∨ st = rules.peer ∨ st = .done → s.state ≠ st := by
      intro st hcase heq
      cases hst with
      | inl hs =>
        obtain rfl | rfl | rfl := hcase
        · exact hr.distinct.2.1 (hs.symm.trans heq)
        · exact hr.distinct.2.2.2.2 (hs.symm.trans heq)
        · exact hr.distinct.2.2.1 (hs.symm.trans heq)
      | inr hs =>
        rw [hs] at heq
        obtain rfl | rfl | rfl := hcase
        · cases heq
        · exact hr.peer_ne.1 heq.symm
        · cases heq
    cases hchange with
    | quiet _ hstate => exact .inr (hstate ▸ hst)
    | take hs => exact absurd hs (hnot _ (.inl rfl))
    | lock hs => exact absurd hs (hnot _ (.inr (.inl rfl)))
    | answer hs => exact absurd hs (hnot _ (.inr (.inr rfl)))

theorem Passed.change {claims mark : Nat} {s s' : Slot} {p p' : Phase}
    (h : Passed rules claims mark s.state) (hp : p ≠ .armed)
    (hchange : PhaseChange rules s p p' s') : Passed rules claims mark s'.state := by
  cases hchange with
  | publish => exact absurd rfl hp
  | prepare _ hstate => exact hstate ▸ h
  | consume => exact .inr (.inl rfl)
  | free | release => exact .inr (.inr rfl)
  | _ => exact h

theorem PhaseChange.owned {s s' : Slot} {p p' : Phase} (h : PhaseChange rules s p p' s')
    (hp' : p'.owns = true) : p.owns = true := by
  cases h with
  | stay => exact hp'
  | prepare | raise | publish | reraise | sees | consume | lose => rfl
  | settle _ _ _ hparked => exact hparked.owns
  | keep _ hparked => exact hparked.owns
  | drop | giveUp | free | freeLost | release | releaseLost => cases hp'

theorem PhaseChange.parked {s s' : Slot} {p : Phase} (h : PhaseChange rules s p .preparing s') :
    p.Parked := by
  cases h with
  | stay | prepare => exact .inl rfl
  | keep _ hparked => exact hparked

theorem PhaseChange.released {s s' : Slot} {p p' : Phase} (h : PhaseChange rules s p p' s')
    (hp' : p' = .releasing) : p = .ready ∨ p = .releasing := by
  cases h with
  | stay => exact .inr hp'
  | drop => exact .inl rfl
  | _ => cases hp'

theorem PhaseChange.gen_eq {s s' : Slot} {p p' : Phase} (h : PhaseChange rules s p p' s') :
    s'.gen = s.gen := by
  cases h with
  | prepare _ _ hgen => exact hgen
  | _ => rfl

theorem PhaseChange.excluded {s s' : Slot} {p p' : Phase} (h : PhaseChange rules s p p' s')
    (hkeep : p' = .preparing → p = .preparing) (pc : ClaimPc) (hpc : pc.Excludes p) :
    pc.Excludes p' := by
  have hprep : p ≠ .preparing → p' ≠ .preparing := fun hne heq => hne (hkeep heq)
  cases pc with
  | loadActiveWait =>
    refine ⟨hprep hpc.1, ?_⟩
    cases h with
    | stay => exact hpc.2
    | raise => exact absurd rfl hpc.1
    | _ => nofun
  | casGen | casState =>
    refine ⟨hprep hpc.1, ?_⟩
    cases h with
    | stay => exact hpc.2
    | raise => exact absurd rfl hpc.1
    | publish | reraise | sees | lose => cases hpc.2
    | _ => rfl
  | loadState | bumpGen | casFree | storeLease => trivial

theorem Fair.peer {s' : Slot} (hr : rules.Proper) (hf : Fair rules base v h)
    (hchange : PeerChange rules v.slot s') (hgen : s'.gen = v.slot.gen) :
    Fair rules base { v with slot := s' } h where
  lawful := hf.lawful
  possession := hf.possession.peer hr hchange
  tracks := hf.tracks.congr hgen
  seen_le := hf.seen_le
  flagged t ht := by
    rw [hchange.flag_eq]
    exact hf.flagged t ht
  window t current hseat := (hf.window t current hseat).peer hr hchange
  sight := hf.sight
  deed := hf.deed
  release t ht := (hf.release t ht).peer hr hchange

theorem Fair.tick (hf : Fair rules base v h) :
    Fair rules base { v with slot := v.slot.bumpGen } h.tick :=
  ⟨hf.lawful, hf.possession, hf.tracks.tick, hf.seen_le, hf.flagged, hf.window, hf.sight, hf.deed,
    hf.release⟩

variable [DecidableEq Tid]

theorem Tenancy.phase_update (v : Tenancy Tid) (s' : Slot) (t : Tid) (x : Standing) :
    Tenancy.phase ⟨s', Function.update v.seat t x⟩ = Function.update v.phase t x.phase := by
  funext u
  exact Function.apply_update (fun _ => Standing.phase) v.seat t x u

theorem Tenancy.claim_update (v : Tenancy Tid) (s' : Slot) (t : Tid) (x : Standing) :
    Tenancy.claim ⟨s', Function.update v.seat t x⟩ = Function.update v.claim t x.claim := by
  funext u
  exact Function.apply_update (fun _ => Standing.claim) v.seat t x u

theorem Fair.look {h' : Ledger Tid} {s' : Slot} {t : Tid} {x : Standing}
    (hf : Fair rules base v h) (hstate : s'.state = v.slot.state)
    (hflag : s'.activeWait = v.slot.activeWait) (hphase : x.phase = v.phase t)
    (hlawful : x.Lawful rules) (htracks : h'.Tracks base s' (Function.update v.claim t x.claim))
    (hclaims : h'.claims = h.claims) (hown : h'.own = h.own)
    (hseen : ∀ u, u ≠ t → h'.seen u = h.seen u) (hle : h'.seen t ≤ h.claims)
    (hwindow : ∀ current, x = .claiming (.casState current) → h.claims = h'.seen t)
    (hsight : ∀ pc, x = .claiming pc → h.claims = h'.seen t → ∀ u, pc.Excludes (v.phase u)) :
    Fair rules base ⟨s', Function.update v.seat t x⟩ h' := by
  have hphases : Tenancy.phase ⟨s', Function.update v.seat t x⟩ = v.phase := by
    rw [Tenancy.phase_update, hphase, Function.update_eq_self]
  refine ⟨?_, ?_, ?_, ?_, ?_, ?_, ?_, ?_, ?_⟩
  · exact (Function.forall_update_iff v.seat fun _ x => x.Lawful rules).mpr
      ⟨hlawful, fun u _ => hf.lawful u⟩
  · rw [hphases, hstate]
    exact hf.possession
  · rw [Tenancy.claim_update]
    exact htracks
  · intro u
    rw [hclaims]
    by_cases hu : u = t
    · rw [hu]
      exact hle
    · rw [hseen u hu]
      exact hf.seen_le u
  · rw [hphases, hflag]
    exact hf.flagged
  · rw [hclaims, hstate]
    refine (Function.forall_update_iff v.seat fun u x => ∀ current,
      x = .claiming (.casState current) → Passed rules h.claims (h'.seen u) v.slot.state).mpr
      ⟨fun current hx => .inl (hwindow current hx), ?_⟩
    intro u hu
    rw [hseen u hu]
    exact hf.window u
  · rw [hphases, hclaims]
    refine (Function.forall_update_iff v.seat fun u x => ∀ pc, x = .claiming pc →
      h.claims = h'.seen u → ∀ w, pc.Excludes (v.phase w)).mpr ⟨hsight, ?_⟩
    intro u hu
    rw [hseen u hu]
    exact hf.sight u
  · rw [hphases, hclaims, hown]
    exact hf.deed
  · rw [hphases, hclaims, hown, hstate]
    exact hf.release

theorem Fair.land {t : Tid} (hr : rules.Proper) (hf : Fair rules base v h)
    (hothers : ∀ u, u ≠ t → (v.phase u).owns = false)
    (htracks : (h.land t).Tracks base { v.slot with state := rules.claimed }
      (Function.update v.claim t (some .storeLease))) :
    Fair rules base ⟨{ v.slot with state := rules.claimed },
      Function.update v.seat t (.claiming .storeLease)⟩ (h.land t) := by
  have hlater : ∀ u, h.claims + 1 ≠ h.seen u := by
    intro u heq
    have hle := hf.seen_le u
    omega
  refine ⟨?_, ?_, ?_, ?_, ?_, ?_, ?_, ?_, ?_⟩
  · exact (Function.forall_update_iff v.seat fun _ x => x.Lawful rules).mpr
      ⟨trivial, fun u _ => hf.lawful u⟩
  · rw [Tenancy.phase_update]
    exact Possession.land hr hothers rfl
  · rw [Tenancy.claim_update]
    exact htracks
  · intro u
    exact Nat.le_succ_of_le (hf.seen_le u)
  · rw [Tenancy.phase_update]
    refine (Function.forall_update_iff v.phase fun _ p => p.flagged = true →
      v.slot.activeWait = true).mpr ⟨nofun, fun u _ => hf.flagged u⟩
  · intro _ _ _
    exact .inr (.inl rfl)
  · intro u _ _ hclaims
    exact absurd hclaims (hlater u)
  · rw [Tenancy.phase_update]
    refine (Function.forall_update_iff v.phase fun u p => p.owns = true →
      h.claims + 1 = (h.land t).own u).mpr ⟨?_, ?_⟩
    · intro _
      show h.claims + 1 = Function.update h.own t (h.claims + 1) t
      rw [Function.update_self]
    · intro u hu howns
      rw [hothers u hu] at howns
      cases howns
  · intro _ _
    exact .inr (.inl rfl)

theorem Fair.act {t : Tid} {p p' : Phase} {s' : Slot} (hr : rules.Proper)
    (hf : Fair rules base v h) (hseat : v.seat t = .tenant p)
    (hchange : PhaseChange rules v.slot p p' s') (hkeep : p' = .preparing → p = .preparing)
    (hpublishing : p = .armed → ∀ u, u ≠ t →
      (∀ current, v.seat u ≠ .claiming (.casState current)) ∧ v.phase u ≠ .releasing) :
    Fair rules base ⟨s', Function.update v.seat t (.tenant p')⟩ h := by
  have hphase : v.phase t = p := congrArg Standing.phase hseat
  have hclaim : Function.update v.claim t none = v.claim := by
    rw [show none = v.claim t from (congrArg Standing.claim hseat).symm, Function.update_eq_self]
  refine ⟨?_, ?_, ?_, hf.seen_le, ?_, ?_, ?_, ?_, ?_⟩
  · exact (Function.forall_update_iff v.seat fun _ x => x.Lawful rules).mpr
      ⟨trivial, fun u _ => hf.lawful u⟩
  · rw [Tenancy.phase_update]
    exact hf.possession.change hr hphase (fun harmed u hu => (hpublishing harmed u hu).2) hchange
  · rw [Tenancy.claim_update]
    simp only [Standing.claim, hclaim]
    exact hf.tracks.congr hchange.gen_eq
  · rw [Tenancy.phase_update]
    refine (Function.forall_update_iff v.phase fun _ p => p.flagged = true →
      s'.activeWait = true).mpr ⟨hchange.flag (fun hp => hf.flagged t (hphase ▸ hp)), ?_⟩
    intro u hu hflag
    have howns : p.owns = false :=
      hphase ▸ hf.possession.others (Phase.owns_of_flagged hflag) t hu.symm
    rw [hchange.flag_eq howns]
    exact hf.flagged u hflag
  · refine (Function.forall_update_iff v.seat fun u x => ∀ current,
      x = .claiming (.casState current) → Passed rules h.claims (h.seen u) s'.state).mpr
      ⟨nofun, ?_⟩
    intro u hu current hx
    refine (hf.window u current hx).change (fun harmed => ?_) hchange
    exact (hpublishing harmed u hu).1 current hx
  · rw [Tenancy.phase_update]
    refine (Function.forall_update_iff v.seat fun u x => ∀ pc, x = .claiming pc →
      h.claims = h.seen u → ∀ w, pc.Excludes (Function.update v.phase t p' w)).mpr ⟨nofun, ?_⟩
    intro u _ pc hx hclaims
    have hold := hf.sight u pc hx hclaims
    exact (Function.forall_update_iff v.phase fun _ p => pc.Excludes p).mpr
      ⟨hchange.excluded hkeep pc (hphase ▸ hold t), fun w _ => hold w⟩
  · rw [Tenancy.phase_update]
    refine (Function.forall_update_iff v.phase fun u p => p.owns = true →
      h.claims = h.own u).mpr ⟨?_, fun u _ => hf.deed u⟩
    intro howns
    exact hf.deed t (hphase ▸ hchange.owned howns)
  · rw [Tenancy.phase_update]
    refine (Function.forall_update_iff v.phase fun u p => p = .releasing →
      Passed rules h.claims (h.own u) s'.state).mpr ⟨?_, ?_⟩
    · intro hrel
      cases hchange.released hrel with
      | inl hready => exact .inl (hf.deed t (by rw [hphase, hready]; rfl))
      | inr hold =>
        exact (hf.release t (hphase.trans hold)).change (by rw [hold]; nofun) hchange
    · intro u hu hrel
      refine (hf.release u hrel).change (fun harmed => ?_) hchange
      exact (hpublishing harmed u hu).2 hrel

theorem Fair.start {t : Tid} (hf : Fair rules base v h) (hseat : v.seat t = .tenant .outside) :
    Fair rules base ⟨v.slot, Function.update v.seat t (.claiming (.loadState v.slot.gen))⟩
      (h.note t) := by
  refine hf.look rfl rfl (congrArg Standing.phase hseat).symm trivial (hf.tracks.note t) rfl rfl
    (fun _ _ => rfl) (hf.seen_le t) nofun ?_
  intro pc hx _ u
  cases hx
  trivial

theorem claim_afterClaim (r : Progress ClaimPc) : (Standing.afterClaim r).claim = r.rest := by
  cases r with
  | running pc => rfl
  | returned ok => cases ok with
    | true => rfl
    | false => rfl

theorem Fair.proceed {h' : Ledger Tid} {s' : Slot} {t : Tid} {pc : ClaimPc} {x : Standing}
    (hf : Fair rules base v h) (hseat : v.seat t = .claiming pc) (hstate : s'.state = v.slot.state)
    (hflag : s'.activeWait = v.slot.activeWait) (hphase : x.phase = (Standing.claiming pc).phase)
    (hlawful : x.Lawful rules) (htracks : h'.Tracks base s' (Function.update v.claim t x.claim))
    (hclaims : h'.claims = h.claims) (hown : h'.own = h.own) (hseen : h'.seen = h.seen)
    (hwindow : ∀ current, x = .claiming (.casState current) → h.claims = h.seen t)
    (hsight : ∀ pc', x = .claiming pc' → h.claims = h.seen t → ∀ u, pc'.Excludes (v.phase u)) :
    Fair rules base ⟨s', Function.update v.seat t x⟩ h' := by
  refine hf.look hstate hflag (hphase.trans (congrArg Standing.phase hseat).symm) hlawful htracks
    hclaims hown (fun u _ => congrFun hseen u) ?_ ?_ ?_
  · rw [hseen]
    exact hf.seen_le t
  · rw [hseen]
    exact hwindow
  · rw [hseen]
    exact hsight

theorem Fair.leave {h' : Ledger Tid} {s' : Slot} {t : Tid} {pc : ClaimPc} {p : Phase}
    (hf : Fair rules base v h) (hseat : v.seat t = .claiming pc) (hstate : s'.state = v.slot.state)
    (hflag : s'.activeWait = v.slot.activeWait) (hphase : p = (Standing.claiming pc).phase)
    (htracks : h'.Tracks base s' (Function.update v.claim t none))
    (hclaims : h'.claims = h.claims) (hown : h'.own = h.own) (hseen : h'.seen = h.seen) :
    Fair rules base ⟨s', Function.update v.seat t (.tenant p)⟩ h' := by
  apply hf.proceed (x := .tenant p) hseat hstate hflag hphase trivial htracks hclaims hown hseen
  · intro _ h
    cases h
  · intro _ h
    cases h

theorem Fair.sighted {t : Tid} {gen : Nat} {x : Standing} (hf : Fair rules base v h)
    (hseat : v.seat t = .claiming (.loadState gen)) (hphase : x.phase = .outside)
    (hlawful : x.Lawful rules)
    (htracks : (h.record t v.slot (.loadState gen)).Tracks base v.slot
      (Function.update v.claim t x.claim))
    (hnot : ∀ current, x ≠ .claiming (.casState current))
    (hsight : ∀ pc, x = .claiming pc → ∀ u, pc.Excludes (v.phase u)) :
    Fair rules base ⟨v.slot, Function.update v.seat t x⟩
      (h.record t v.slot (.loadState gen)) := by
  have hnow : (h.record t v.slot (.loadState gen)).seen t = h.claims := Function.update_self _ _ _
  refine hf.look rfl rfl (hphase.trans (congrArg Standing.phase hseat).symm) hlawful htracks rfl rfl
    (fun u hu => Function.update_of_ne hu _ _) (Nat.le_of_eq hnow) ?_ ?_
  · exact fun current hx => absurd hx (hnot current)
  · exact fun pc hx _ => hsight pc hx

theorem Fair.claim {t : Tid} {pc : ClaimPc} (now : Nat) (hr : rules.Proper)
    (hf : Fair rules base v h) (hseat : v.seat t = .claiming pc)
    (horderly : Orderly rules v h (some t)) :
    Fair rules base ⟨(rules.step now v.slot pc).1,
      Function.update v.seat t (.afterClaim (rules.step now v.slot pc).2)⟩
      (h.record t v.slot pc) := by
  have hclaim : v.claim t = some pc := congrArg Standing.claim hseat
  have hlawful := lawful_claim rules now v.slot pc (by
    have hlawful := hf.lawful t
    rw [hseat] at hlawful
    exact hlawful)
  have htracks := hf.tracks.step rules now hclaim (by
    rintro gen rfl hsteal u hu pc' hpc'
    exact horderly.sighting t gen rfl hseat hsteal u hu pc' (Tenancy.seat_of_claim hpc'))
  rw [← claim_afterClaim] at htracks
  cases pc with
  | loadState gen =>
    simp only [ClaimRules.step] at hlawful htracks ⊢
    split
    case isTrue hfree =>
      simp only [hfree, if_true] at htracks
      refine hf.sighted hseat rfl trivial htracks (by intro _ h; cases h) ?_
      intro pc hx u
      cases hx
      trivial
    case isFalse hfree =>
      simp only [hfree, if_false] at hlawful htracks
      split
      case isTrue hsteal =>
        simp only [hsteal, if_true] at hlawful htracks
        refine hf.sighted hseat rfl hlawful htracks (by intro _ h; cases h) ?_
        intro pc hx
        cases hx
        exact hf.excludes_of_stealable hr hsteal
      case isFalse hsteal =>
        simp only [hsteal, Bool.false_eq_true, if_false] at htracks
        exact hf.sighted hseat rfl trivial htracks (by intro _ h; cases h)
          (by intro _ h; cases h)
  | bumpGen =>
    exact hf.proceed hseat rfl rfl rfl trivial htracks rfl rfl rfl (by intro _ h; cases h)
      (fun pc hx _ u => by cases hx; trivial)
  | casFree =>
    simp only [ClaimRules.step, Ledger.record] at htracks ⊢
    split
    case isTrue hfree =>
      simp only [hfree, if_true] at htracks
      refine hf.land hr (fun u _ => ?_) htracks
      exact Phase.unowned_of_free hr (hfree ▸ hf.possession.allows u)
    case isFalse hfree =>
      simp only [hfree, if_false] at htracks
      exact hf.leave hseat rfl rfl rfl htracks rfl rfl rfl
  | loadActiveWait gen current =>
    simp only [ClaimRules.step, Ledger.record] at hlawful htracks ⊢
    split
    case isTrue hup =>
      simp only [hup, if_true] at htracks
      exact hf.leave hseat rfl rfl rfl htracks rfl rfl rfl
    case isFalse hup =>
      simp only [hup, Bool.false_eq_true, if_false] at hlawful htracks
      refine hf.proceed hseat rfl rfl rfl hlawful htracks rfl rfl rfl (by intro _ h; cases h) ?_
      intro pc hx hclaims u
      cases hx
      refine ⟨(hf.sight t _ hseat hclaims u).1, ?_⟩
      cases hflag : (v.phase u).flagged with
      | false => rfl
      | true => exact absurd (hf.flagged u hflag) hup
  | casGen gen current =>
    simp only [ClaimRules.step, Ledger.record] at hlawful htracks ⊢
    split
    case isTrue hgen =>
      simp only [hgen, if_true] at hlawful htracks
      obtain ⟨hclaims, _⟩ := hf.tracks.win hclaim hgen (horderly.round t gen current rfl hseat)
      refine hf.proceed hseat rfl rfl rfl hlawful htracks rfl rfl rfl (fun _ _ => hclaims) ?_
      intro pc hx _ u
      cases hx
      exact hf.sight t _ hseat hclaims u
    case isFalse hgen =>
      simp only [hgen, if_false] at htracks
      exact hf.leave hseat rfl rfl rfl htracks rfl rfl rfl
  | casState current =>
    simp only [ClaimRules.step, Ledger.record] at htracks ⊢
    split
    case isTrue hstate =>
      simp only [hstate, if_true] at htracks
      exact hf.land hr (fun u _ => (hf.steals hr t current hseat hstate).2 u) htracks
    case isFalse hstate =>
      simp only [hstate, if_false] at htracks
      exact hf.leave hseat rfl rfl rfl htracks rfl rfl rfl
  | storeLease => exact hf.leave hseat rfl rfl rfl htracks rfl rfl rfl

/-- One step of the abstract system, with what the ledger records of it. -/
inductive TenancyStep (rules : ClaimRules) (v : Tenancy Tid) (h : Ledger Tid) :
    Option Tid → Tenancy Tid → Ledger Tid → Prop
  | start (t : Tid) (hseat : v.seat t = .tenant .outside) :
      TenancyStep rules v h (some t)
        ⟨v.slot, Function.update v.seat t (.claiming (.loadState v.slot.gen))⟩ (h.note t)
  | claim (t : Tid) (now : Nat) (pc : ClaimPc) (hseat : v.seat t = .claiming pc) :
      TenancyStep rules v h (some t) ⟨(rules.step now v.slot pc).1,
        Function.update v.seat t (.afterClaim (rules.step now v.slot pc).2)⟩
        (h.record t v.slot pc)
  | act (t : Tid) (p p' : Phase) (s' : Slot) (hseat : v.seat t = .tenant p)
      (hchange : PhaseChange rules v.slot p p' s') (hkeep : p' = .preparing → p = .preparing) :
      TenancyStep rules v h (some t) ⟨s', Function.update v.seat t (.tenant p')⟩ h
  | peer (s' : Slot) (hchange : PeerChange rules v.slot s') (hgen : s'.gen = v.slot.gen) :
      TenancyStep rules v h none { v with slot := s' } h
  | tick (actor : Option Tid) :
      TenancyStep rules v h actor { v with slot := v.slot.bumpGen } h.tick

theorem Fair.step {v' : Tenancy Tid} {h' : Ledger Tid} {actor : Option Tid} (hr : rules.Proper)
    (hf : Fair rules base v h) (horderly : Orderly rules v h actor)
    (hstep : TenancyStep rules v h actor v' h') : Fair rules base v' h' := by
  cases hstep with
  | start t hseat => exact hf.start hseat
  | claim t now pc hseat => exact hf.claim now hr hseat horderly
  | act t p p' s' hseat hchange hkeep =>
    refine hf.act hr hseat hchange hkeep ?_
    rintro rfl
    exact horderly.publishing t rfl hseat
  | peer s' hchange hgen => exact hf.peer hr hchange hgen
  | tick => exact hf.tick

end

end ShmIpc.Slots
