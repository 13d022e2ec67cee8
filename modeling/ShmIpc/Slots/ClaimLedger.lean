import ShmIpc.Library.Handshake
import ShmIpc.Slots.Claim

/-!
The claims of a slot as takeovers under the generation handshake. The ledger
counts the advances of the generation and the successful claims, and notes for
each thread where the two counts stood when it loaded the generation and when it
loaded the state, and which claim gave it the slot. It serves the claims of either
side.
-/

namespace ShmIpc.Slots

open Library

variable {Tid : Type}

structure Ledger (Tid : Type) where
  bumps : Nat
  claims : Nat
  snap : Tid → Nat
  seen : Tid → Nat
  own : Tid → Nat

def Ledger.empty : Ledger Tid := ⟨0, 0, fun _ => 0, fun _ => 0, fun _ => 0⟩

/-- Somebody other than a claimant advances the generation. -/
def Ledger.tick (h : Ledger Tid) : Ledger Tid := { h with bumps := h.bumps + 1 }

/-- The generation a claim will compare with. -/
def ClaimPc.snapshot : ClaimPc → Option Nat
  | .loadState gen | .loadActiveWait gen _ | .casGen gen _ => some gen
  | _ => none

def ClaimPc.stage (snap seen : Nat) : ClaimPc → Stage
  | .loadState _ => .noted snap
  | .loadActiveWait _ _ | .casGen _ _ => .sighted snap seen
  | .casFree | .casState _ => .pending
  | .bumpGen | .storeLease => .away

/-- The claim a thread is in after a step of it. -/
def Progress.rest {π : Type} : Progress π → Option π
  | .running pc => some pc
  | .returned _ => none

def Ledger.stage (h : Ledger Tid) (claim : Option ClaimPc) (t : Tid) : Stage :=
  match claim with
  | none => .away
  | some pc => pc.stage (h.snap t) (h.seen t)

def Ledger.handshake (h : Ledger Tid) (claim : Tid → Option ClaimPc) : Handshake Tid where
  bumps := h.bumps
  lands := h.claims
  stage t := h.stage (claim t) t

structure Ledger.Tracks (h : Ledger Tid) (base : Nat) (s : Slot)
    (claim : Tid → Option ClaimPc) : Prop where
  gen : s.gen = (base + h.bumps) % genPeriod
  snaps : ∀ t pc gen, claim t = some pc → pc.snapshot = some gen →
    gen = (base + h.snap t) % genPeriod
  sound : (h.handshake claim).Sound

theorem Ledger.Tracks.congr {h : Ledger Tid} {base : Nat} {s s' : Slot}
    {claim : Tid → Option ClaimPc} (ht : h.Tracks base s claim) (hgen : s'.gen = s.gen) :
    h.Tracks base s' claim :=
  ⟨hgen.trans ht.gen, ht.snaps, ht.sound⟩

theorem Ledger.Tracks.tick {h : Ledger Tid} {base : Nat} {s : Slot}
    {claim : Tid → Option ClaimPc} (ht : h.Tracks base s claim) :
    h.tick.Tracks base s.bumpGen claim :=
  ⟨bumpGen_gen ht.gen, ht.snaps, ht.sound.tick⟩

/-- A generation swap that succeeds shows that no claim landed since the sighting
and that no other claim is half done, unless the generation went all the way round. -/
theorem Ledger.Tracks.win {h : Ledger Tid} {base gen : Nat} {s : Slot}
    {claim : Tid → Option ClaimPc} (ht : h.Tracks base s claim) {t : Tid} {current : SlotState}
    (hpc : claim t = some (.casGen gen current)) (hgen : s.gen = gen)
    (hround : h.bumps - h.snap t < genPeriod) :
    h.claims = h.seen t ∧ ∀ u pc, claim u = some pc → pc.pending = false := by
  have hstage : (h.handshake claim).stage t = .sighted (h.snap t) (h.seen t) := by
    show h.stage (claim t) t = _
    rw [hpc]
    rfl
  obtain ⟨hle, hquiet⟩ := ht.sound.sighted t _ _ hstage
  have hsame : h.bumps = h.snap t := by
    refine eq_of_wrapped base hle hround ?_
    rw [← ht.gen, hgen]
    exact ht.snaps t _ gen hpc rfl
  obtain ⟨hclaims, hpending⟩ := hquiet hsame
  refine ⟨hclaims, ?_⟩
  intro u pc hu
  have hne : h.stage (claim u) u ≠ .pending := hpending u
  rw [hu] at hne
  cases pc with
  | casFree | casState => exact absurd rfl hne
  | _ => rfl

variable [DecidableEq Tid]

/-- A thread loads the generation to begin a claim. -/
def Ledger.note (h : Ledger Tid) (t : Tid) : Ledger Tid :=
  { h with snap := Function.update h.snap t h.bumps }

def Ledger.land (h : Ledger Tid) (t : Tid) : Ledger Tid :=
  { h with claims := h.claims + 1, own := Function.update h.own t (h.claims + 1) }

def Ledger.record (h : Ledger Tid) (t : Tid) (s : Slot) : ClaimPc → Ledger Tid
  | .loadState _ => { h with seen := Function.update h.seen t h.claims }
  | .bumpGen => h.tick
  | .casFree => if s.state = .free then h.land t else h
  | .casGen gen _ => if s.gen = gen then h.tick else h
  | .casState current => if s.state = current then h.land t else h
  | .loadActiveWait _ _ | .storeLease => h

theorem handshake_update (h h' : Ledger Tid) (claim : Tid → Option ClaimPc) (t : Tid)
    (c : Option ClaimPc) (hsnap : ∀ u, u ≠ t → h'.snap u = h.snap u)
    (hseen : ∀ u, u ≠ t → h'.seen u = h.seen u) :
    h'.handshake (Function.update claim t c) = { h.handshake claim with
      bumps := h'.bumps
      lands := h'.claims
      stage := Function.update (h.handshake claim).stage t (h'.stage c t) } := by
  simp only [Ledger.handshake, Handshake.mk.injEq, true_and]
  funext u
  by_cases hu : u = t
  · subst hu
    rw [Function.update_self, Function.update_self]
  · rw [Function.update_of_ne hu, Function.update_of_ne hu]
    simp only [Ledger.stage, hsnap u hu, hseen u hu]

theorem Ledger.Tracks.note {h : Ledger Tid} {base : Nat} {s : Slot}
    {claim : Tid → Option ClaimPc} (ht : h.Tracks base s claim) (t : Tid) :
    (h.note t).Tracks base s (Function.update claim t (some (.loadState s.gen))) where
  gen := ht.gen
  snaps := by
    refine (Function.forall_update_iff claim fun u c => ∀ pc gen, c = some pc →
      pc.snapshot = some gen → gen = (base + (h.note t).snap u) % genPeriod).mpr ⟨?_, ?_⟩
    · intro pc gen hpc hgen
      cases hpc
      cases hgen
      rw [show (h.note t).snap t = h.bumps from Function.update_self _ _ _]
      exact ht.gen
    · intro u hu pc gen hpc hgen
      rw [show (h.note t).snap u = h.snap u from Function.update_of_ne hu _ _]
      exact ht.snaps u pc gen hpc hgen
  sound := by
    rw [handshake_update h (h.note t) claim t _ (fun u hu => Function.update_of_ne hu _ _)
      (fun _ _ => rfl)]
    have hstage : (h.note t).stage (some (.loadState s.gen)) t = .noted h.bumps := by
      show Stage.noted ((h.note t).snap t) = _
      rw [show (h.note t).snap t = h.bumps from Function.update_self _ _ _]
    rw [hstage]
    exact ht.sound.note t

theorem Ledger.Tracks.update {h h' : Ledger Tid} {base : Nat} {s s' : Slot}
    {claim : Tid → Option ClaimPc} (ht : h.Tracks base s claim) {t : Tid} {c : Option ClaimPc}
    (hsnap : h'.snap = h.snap) (hseen : ∀ u, u ≠ t → h'.seen u = h.seen u)
    (hgen : s'.gen = (base + h'.bumps) % genPeriod)
    (hsnapshot : ∀ pc gen, c = some pc → pc.snapshot = some gen →
      ∃ pc₀, claim t = some pc₀ ∧ pc₀.snapshot = some gen)
    (hsound : Handshake.Sound { h.handshake claim with
      bumps := h'.bumps
      lands := h'.claims
      stage := Function.update (h.handshake claim).stage t (h'.stage c t) }) :
    h'.Tracks base s' (Function.update claim t c) where
  gen := hgen
  snaps := by
    refine (Function.forall_update_iff claim fun u c => ∀ pc gen, c = some pc →
      pc.snapshot = some gen → gen = (base + h'.snap u) % genPeriod).mpr ⟨?_, ?_⟩
    · intro pc gen hpc hpcGen
      obtain ⟨pc₀, hpc₀, hgen₀⟩ := hsnapshot pc gen hpc hpcGen
      rw [hsnap]
      exact ht.snaps t pc₀ gen hpc₀ hgen₀
    · intro u _ pc gen hpc hpcGen
      rw [hsnap]
      exact ht.snaps u pc gen hpc hpcGen
  sound := by
    rw [handshake_update h h' claim t c (fun u _ => by rw [hsnap]) hseen]
    exact hsound

/-- Every step of a claim keeps the ledger, provided a sighting of a state to steal
from finds no other claim half done. -/
theorem Ledger.Tracks.step {h : Ledger Tid} {base : Nat} {s : Slot}
    {claim : Tid → Option ClaimPc} (ht : h.Tracks base s claim) (rules : ClaimRules) (now : Nat)
    {t : Tid} {pc : ClaimPc} (hpc : claim t = some pc)
    (hquiet : ∀ gen, pc = .loadState gen → rules.stealable s.state = true → ∀ u, u ≠ t →
      ∀ pc', claim u = some pc' → pc'.pending = false) :
    (h.record t s pc).Tracks base (rules.step now s pc).1
      (Function.update claim t (rules.step now s pc).2.rest) := by
  have hstage : (h.handshake claim).stage t = pc.stage (h.snap t) (h.seen t) := by
    show h.stage (claim t) t = _
    rw [hpc]
    rfl
  cases pc with
  | loadState gen =>
    have hseen : ∀ u, u ≠ t → (h.record t s (.loadState gen)).seen u = h.seen u :=
      fun u hu => Function.update_of_ne hu _ _
    simp only [ClaimRules.step]
    split
    · exact ht.update rfl hseen ht.gen (by rintro pc g hc hg; cases hc; cases hg)
        (ht.sound.leave t)
    · split
      case isTrue hsteal =>
        refine ht.update rfl hseen ht.gen ?_ ?_
        · intro pc g hc hg
          cases hc
          exact ⟨_, hpc, hg⟩
        · have hnow : (h.record t s (.loadState gen)).seen t = h.claims :=
            Function.update_self _ _ _
          simp only [Progress.rest, Ledger.stage, ClaimPc.stage, hnow]
          refine ht.sound.sight hstage ?_
          intro u hu hpending
          have hpending : h.stage (claim u) u = .pending := hpending
          cases hc : claim u with
          | none => rw [hc] at hpending; cases hpending
          | some pc' =>
            have hfalse := hquiet gen rfl hsteal u hu pc' hc
            rw [hc] at hpending
            cases pc' with
            | casFree | casState => cases hfalse
            | _ => cases hpending
      case isFalse _ =>
        exact ht.update rfl hseen ht.gen nofun (ht.sound.leave t)
  | bumpGen =>
    exact ht.update rfl (fun _ _ => rfl) (bumpGen_gen ht.gen)
      (by rintro pc g hc hg; cases hc; cases hg) (ht.sound.bump t)
  | casFree =>
    simp only [ClaimRules.step, Ledger.record]
    split
    · exact ht.update rfl (fun _ _ => rfl) ht.gen (by rintro pc g hc hg; cases hc; cases hg)
        (ht.sound.land hstage)
    · exact ht.update rfl (fun _ _ => rfl) ht.gen nofun (ht.sound.leave t)
  | loadActiveWait gen current =>
    simp only [ClaimRules.step, Ledger.record]
    split
    · exact ht.update rfl (fun _ _ => rfl) ht.gen nofun (ht.sound.leave t)
    · refine ht.update rfl (fun _ _ => rfl) ht.gen ?_ ?_
      · intro pc g hc hg
        cases hc
        exact ⟨_, hpc, hg⟩
      · have hsame : Function.update (h.handshake claim).stage t
            (h.stage (some (.casGen gen current)) t) = (h.handshake claim).stage := by
          rw [show h.stage (some (.casGen gen current)) t = (h.handshake claim).stage t from
            hstage.symm]
          exact Function.update_eq_self t _
        simp only [Progress.rest, hsame]
        exact ht.sound
  | casGen gen current =>
    simp only [ClaimRules.step, Ledger.record]
    split
    · exact ht.update rfl (fun _ _ => rfl) (bumpGen_gen ht.gen)
        (by rintro pc g hc hg; cases hc; cases hg) (ht.sound.bump t)
    · exact ht.update rfl (fun _ _ => rfl) ht.gen nofun (ht.sound.leave t)
  | casState current =>
    simp only [ClaimRules.step, Ledger.record]
    split
    · exact ht.update rfl (fun _ _ => rfl) ht.gen (by rintro pc g hc hg; cases hc; cases hg)
        (ht.sound.land hstage)
    · exact ht.update rfl (fun _ _ => rfl) ht.gen nofun (ht.sound.leave t)
  | storeLease => exact ht.update rfl (fun _ _ => rfl) ht.gen nofun (ht.sound.leave t)

end ShmIpc.Slots
