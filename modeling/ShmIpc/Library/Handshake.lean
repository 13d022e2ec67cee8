import Mathlib.Logic.Function.Basic

/-!
Optimistic takeover with a version counter. A party notes the counter, sights
what it wants to take over, and then advances the counter by a compare-and-swap
that fails if the counter moved since the note. Every takeover advances the counter
before it lands. If no takeover was half done when a party made its sighting, a
successful swap shows that none has landed since, and that none is half done now.
If moreover every takeover goes through such a swap, at most one is half done at a
time, and nothing lands between a party's sighting and its own landing.
-/

namespace ShmIpc.Library

universe u

inductive Stage
  | away
  | noted (snap : Nat)
  | sighted (snap seen : Nat)
  | pending
  deriving DecidableEq

/-- How often the counter was advanced, how many takeovers have landed, and where
each party stands. The counts do not wrap; a wrapping counter is a remainder of
`bumps`. -/
structure Handshake (ι : Type u) where
  bumps : Nat
  lands : Nat
  stage : ι → Stage

namespace Handshake

variable {ι : Type u}

structure Sound (h : Handshake ι) : Prop where
  noted : ∀ t snap, h.stage t = .noted snap → snap ≤ h.bumps
  sighted : ∀ t snap seen, h.stage t = .sighted snap seen → snap ≤ h.bumps ∧
    (h.bumps = snap → h.lands = seen ∧ ∀ u, h.stage u ≠ .pending)

/-- Somebody who takes nothing over advances the counter. -/
def tick (h : Handshake ι) : Handshake ι := { h with bumps := h.bumps + 1 }

theorem Sound.tick {h : Handshake ι} (hs : h.Sound) : h.tick.Sound where
  noted t snap ht := Nat.le_succ_of_le (hs.noted t snap ht)
  sighted t snap seen ht := by
    have hle := (hs.sighted t snap seen ht).1
    refine ⟨Nat.le_succ_of_le hle, ?_⟩
    intro heq
    have hbumps : h.bumps + 1 = snap := heq
    omega

variable [DecidableEq ι]

def note (h : Handshake ι) (t : ι) : Handshake ι :=
  { h with stage := Function.update h.stage t (.noted h.bumps) }

def sight (h : Handshake ι) (t : ι) (snap : Nat) : Handshake ι :=
  { h with stage := Function.update h.stage t (.sighted snap h.lands) }

def bump (h : Handshake ι) (t : ι) : Handshake ι :=
  { h with bumps := h.bumps + 1, stage := Function.update h.stage t .pending }

def land (h : Handshake ι) (t : ι) : Handshake ι :=
  { h with lands := h.lands + 1, stage := Function.update h.stage t .away }

def leave (h : Handshake ι) (t : ι) : Handshake ι :=
  { h with stage := Function.update h.stage t .away }

/-- A party steps back to a stage that asks for nothing. -/
theorem sound_of_update {h : Handshake ι} {t : ι} {x : Stage} (hs : h.Sound)
    (hpending : x ≠ .pending) (hnoted : ∀ snap, x = .noted snap → snap ≤ h.bumps)
    (hsighted : ∀ snap seen, x = .sighted snap seen → snap ≤ h.bumps ∧
      (h.bumps = snap → h.lands = seen ∧ ∀ u, u ≠ t → h.stage u ≠ .pending)) :
    Sound { h with stage := Function.update h.stage t x } := by
  have hquiet : (∀ u, u ≠ t → h.stage u ≠ .pending) →
      ∀ u, Function.update h.stage t x u ≠ .pending := fun hall =>
    (Function.forall_update_iff h.stage fun _ y => y ≠ .pending).mpr ⟨hpending, hall⟩
  refine ⟨?_, ?_⟩
  · exact (Function.forall_update_iff h.stage
      fun _ y => ∀ snap, y = .noted snap → snap ≤ h.bumps).mpr
        ⟨hnoted, fun u _ => hs.noted u⟩
  · refine (Function.forall_update_iff h.stage fun _ y => ∀ snap seen, y = .sighted snap seen →
      snap ≤ h.bumps ∧ (h.bumps = snap → h.lands = seen ∧
        ∀ u, Function.update h.stage t x u ≠ .pending)).mpr ⟨?_, ?_⟩
    · intro snap seen hx
      obtain ⟨hle, heq⟩ := hsighted snap seen hx
      exact ⟨hle, fun hb => ⟨(heq hb).1, hquiet (heq hb).2⟩⟩
    · intro u _ snap seen hu
      obtain ⟨hle, heq⟩ := hs.sighted u snap seen hu
      exact ⟨hle, fun hb => ⟨(heq hb).1, hquiet fun v _ => (heq hb).2 v⟩⟩

theorem Sound.note {h : Handshake ι} (hs : h.Sound) (t : ι) : (h.note t).Sound := by
  refine sound_of_update hs nofun ?_ nofun
  intro snap heq
  cases heq
  exact Nat.le_refl _

theorem Sound.leave {h : Handshake ι} (hs : h.Sound) (t : ι) : (h.leave t).Sound :=
  sound_of_update hs nofun nofun nofun

/-- A sighting is good if no other takeover is half done. -/
theorem Sound.sight {h : Handshake ι} (hs : h.Sound) {t : ι} {snap : Nat}
    (ht : h.stage t = .noted snap) (hquiet : ∀ u, u ≠ t → h.stage u ≠ .pending) :
    (h.sight t snap).Sound := by
  refine sound_of_update hs nofun nofun ?_
  intro snap' seen heq
  cases heq
  exact ⟨hs.noted t snap ht, fun _ => ⟨rfl, hquiet⟩⟩

/-- A change after which no sighting can lead to a successful swap. -/
theorem sound_of_void {h h' : Handshake ι} {t : ι} {x : Stage} (hs : h.Sound)
    (hstage : h'.stage = Function.update h.stage t x) (hbumps : h.bumps ≤ h'.bumps)
    (hnoted : ∀ snap, x ≠ .noted snap) (hsighted : ∀ snap seen, x ≠ .sighted snap seen)
    (hvoid : ∀ u snap seen, h.stage u = .sighted snap seen → h'.bumps ≠ snap) : h'.Sound := by
  refine ⟨?_, ?_⟩
  · rw [hstage]
    exact (Function.forall_update_iff h.stage
      fun _ y => ∀ snap, y = .noted snap → snap ≤ h'.bumps).mpr
        ⟨fun snap hx => absurd hx (hnoted snap), fun u _ snap hu =>
          Nat.le_trans (hs.noted u snap hu) hbumps⟩
  · have hall : ∀ u snap seen, h'.stage u = .sighted snap seen →
        snap ≤ h'.bumps ∧ h'.bumps ≠ snap := by
      rw [hstage]
      exact (Function.forall_update_iff h.stage fun _ y => ∀ snap seen,
        y = .sighted snap seen → snap ≤ h'.bumps ∧ h'.bumps ≠ snap).mpr
          ⟨fun snap seen hx => absurd hx (hsighted snap seen), fun u _ snap seen hu =>
            ⟨Nat.le_trans (hs.sighted u snap seen hu).1 hbumps, hvoid u snap seen hu⟩⟩
    intro u snap seen hu
    obtain ⟨hle, hne⟩ := hall u snap seen hu
    exact ⟨hle, fun heq => absurd heq hne⟩

theorem Sound.bump {h : Handshake ι} (hs : h.Sound) (t : ι) : (h.bump t).Sound := by
  refine sound_of_void hs rfl (Nat.le_succ _) nofun nofun ?_
  intro u snap seen hu
  have hle := (hs.sighted u snap seen hu).1
  show h.bumps + 1 ≠ snap
  omega

theorem Sound.land {h : Handshake ι} (hs : h.Sound) {t : ι} (ht : h.stage t = .pending) :
    (h.land t).Sound :=
  sound_of_void hs rfl (Nat.le_refl _) nofun nofun
    fun u snap seen hu heq => ((hs.sighted u snap seen hu).2 heq).2 t ht

end Handshake

namespace Handshake

variable {ι : Type u} {h : Handshake ι} {t : ι}

/-- At most one takeover is half done, and nobody has seen more landings than there were. -/
structure Exclusive (h : Handshake ι) : Prop where
  single : ∀ t u, h.stage t = .pending → h.stage u = .pending → t = u
  seen : ∀ t snap seen, h.stage t = .sighted snap seen → seen ≤ h.lands

/-- Nothing has landed since the party's sighting, as far as its takeover can still land. -/
def Open (h : Handshake ι) (t : ι) : Prop :=
  match h.stage t with
  | .sighted _ seen => h.lands = seen
  | .pending => True
  | _ => False

theorem Exclusive.tick (hx : h.Exclusive) : h.tick.Exclusive := ⟨hx.single, hx.seen⟩

/-- A swap of a counter that has not moved finds the sighting up to date. -/
theorem Sound.open_of_bumps {snap seen : Nat} (hs : h.Sound) (ht : h.stage t = .sighted snap seen)
    (hbumps : h.bumps = snap) : h.Open t ∧ ∀ u, h.stage u ≠ .pending := by
  obtain ⟨hlands, hquiet⟩ := (hs.sighted t snap seen ht).2 hbumps
  refine ⟨?_, hquiet⟩
  simp only [Open, ht]
  exact hlands

variable [DecidableEq ι]

theorem exclusive_of_update {x : Stage} (hx : h.Exclusive) (hpending : x ≠ .pending)
    (hsighted : ∀ snap seen, x = .sighted snap seen → seen ≤ h.lands) :
    Exclusive { h with stage := Function.update h.stage t x } := by
  have hkept : ∀ u, Function.update h.stage t x u = .pending → h.stage u = .pending :=
    (Function.forall_update_iff h.stage fun u y => y = .pending → h.stage u = .pending).mpr
      ⟨fun heq => absurd heq hpending, fun u _ hu => hu⟩
  refine ⟨fun u v hu hv => hx.single u v (hkept u hu) (hkept v hv), ?_⟩
  exact (Function.forall_update_iff h.stage fun _ y => ∀ snap seen, y = .sighted snap seen →
    seen ≤ h.lands).mpr ⟨hsighted, fun u _ => hx.seen u⟩

theorem Exclusive.note (hx : h.Exclusive) (t : ι) : (h.note t).Exclusive :=
  exclusive_of_update hx nofun nofun

theorem Exclusive.leave (hx : h.Exclusive) (t : ι) : (h.leave t).Exclusive :=
  exclusive_of_update hx nofun nofun

theorem Exclusive.sight (hx : h.Exclusive) (t : ι) (snap : Nat) : (h.sight t snap).Exclusive := by
  refine exclusive_of_update hx nofun ?_
  intro snap' seen heq
  cases heq
  exact Nat.le_refl _

theorem Exclusive.bump (hx : h.Exclusive) (t : ι) (hquiet : ∀ u, h.stage u ≠ .pending) :
    (h.bump t).Exclusive := by
  have halone : ∀ u, Function.update h.stage t .pending u = .pending → u = t :=
    (Function.forall_update_iff h.stage fun u y => y = .pending → u = t).mpr
      ⟨fun _ => rfl, fun u _ hu => absurd hu (hquiet u)⟩
  refine ⟨fun u v hu hv => (halone u hu).trans (halone v hv).symm, ?_⟩
  exact (Function.forall_update_iff h.stage fun _ y => ∀ snap seen, y = .sighted snap seen →
    seen ≤ h.lands).mpr ⟨nofun, fun u _ => hx.seen u⟩

theorem Exclusive.land (hx : h.Exclusive) (t : ι) : (h.land t).Exclusive := by
  have hleave := hx.leave t
  exact ⟨hleave.single, fun u snap seen hu => Nat.le_succ_of_le (hleave.seen u snap seen hu)⟩

/-- A step of one party leaves the openness of another one alone. -/
theorem open_update {u : ι} (hu : u ≠ t) (x : Stage) (bumps : Nat) :
    Open { h with bumps := bumps, stage := Function.update h.stage t x } u ↔ h.Open u := by
  simp only [Open, Function.update_of_ne hu]

/-- A landing closes every other takeover. -/
theorem Exclusive.closed_of_land (hx : h.Exclusive) {u : ι} (hu : u ≠ t)
    (ht : h.stage t = .pending) : ¬ (h.land t).Open u := by
  simp only [Open, Handshake.land, Function.update_of_ne hu]
  cases hstage : h.stage u with
  | sighted snap seen =>
    have hle := hx.seen u snap seen hstage
    show ¬ h.lands + 1 = seen
    omega
  | pending => exact absurd (hx.single u t hstage ht) hu
  | away | noted => exact id

end Handshake

/-- A wrapping counter that shows its old value has not moved, unless it went all
the way round. -/
theorem eq_of_wrapped (base : Nat) {period a b : Nat} (hle : a ≤ b) (hlt : b - a < period)
    (h : (base + b) % period = (base + a) % period) : b = a := by
  have hmod : (b - a) % period = 0 := by
    have := Nat.sub_mod_eq_zero_of_mod_eq h
    rwa [show base + b - (base + a) = b - a by omega] at this
  rw [Nat.mod_eq_of_lt hlt] at hmod
  omega

end ShmIpc.Library
