import ShmIpc.Stream.GuestReassembler

/-!
The map-mutex sections of the Go reassembler. A start takes streams out of the map
for one of three reasons and marks their contexts dead; every other entry, and every
context that is not in the map, is left as it is.
-/

namespace ShmIpc.Stream.Go.Reassembler
open Library

/-- No context is in the map under two ids. -/
def Injective (s : Reassembler) : Prop :=
  ∀ id id' ref, s.streams.lookup id = some ref → s.streams.lookup id' = some ref → id = id'

/-- `s'` has lost streams of `s`, and of those it kept it touched at most the
context of `id`. -/
structure ShrinksOff (id : Nat) (s s' : Reassembler) : Prop where
  entry : ∀ i ref, s'.streams.lookup i = some ref → s.streams.lookup i = some ref
  kept : ∀ i ref, i ≠ id → s'.streams.lookup i = some ref → s'.heap ref = s.heap ref
  unused : ∀ ref, (∀ i, s.streams.lookup i ≠ some ref) → s'.heap ref = s.heap ref
  allocated : s'.allocated = s.allocated

theorem ShrinksOff.refl (id : Nat) (s : Reassembler) : ShrinksOff id s s :=
  ⟨fun _ _ h => h, fun _ _ _ _ => rfl, fun _ _ => rfl, rfl⟩

theorem ShrinksOff.trans {id : Nat} {s s' s'' : Reassembler} (h : ShrinksOff id s s')
    (h' : ShrinksOff id s' s'') : ShrinksOff id s s'' where
  entry i ref hlook := h.entry i ref (h'.entry i ref hlook)
  kept i ref hi hlook :=
    (h'.kept i ref hi hlook).trans (h.kept i ref hi (h'.entry i ref hlook))
  unused ref hunused := by
    have hunused' : ∀ i, s'.streams.lookup i ≠ some ref :=
      fun i hlook => hunused i (h.entry i ref hlook)
    exact (h'.unused ref hunused').trans (h.unused ref hunused)
  allocated := h'.allocated.trans h.allocated

theorem ShrinksOff.injective {id : Nat} {s s' : Reassembler} (h : ShrinksOff id s s')
    (hs : Injective s) : Injective s' :=
  fun i j ref hi hj => hs i j ref (h.entry i ref hi) (h.entry j ref hj)

theorem heap_markDead_of_notMem (s : Reassembler) (refs : List Nat) (ref : Nat)
    (h : ref ∉ refs) : (s.markDead refs).heap ref = s.heap ref := by
  simp only [markDead, if_neg h]

theorem shrinksOff_prune (id : Nat) (s : Reassembler) (now : Int) :
    ShrinksOff id s (s.prune now) := by
  simp only [prune]
  split
  · refine ⟨?_, ?_, ?_, rfl⟩
    · intro i ref hlook
      simp only [lookup_keepIf, Option.filter_eq_some_iff] at hlook
      exact hlook.1
    · intro i ref _ hlook
      simp only [lookup_keepIf, Option.filter_eq_some_iff] at hlook
      apply heap_markDead_of_notMem
      intro hmem
      have hexpired := (List.mem_filter.mp hmem).2
      simp [hexpired] at hlook
    · intro ref hunused
      apply heap_markDead_of_notMem
      intro hmem
      obtain ⟨e, he, heq⟩ := List.mem_map.mp (List.mem_filter.mp hmem).1
      exact hunused e.1 (AList.mem_lookup_iff.mpr (heq ▸ he))
  · exact .refl id s

theorem shrinksOff_markDead (id : Nat) (s : Reassembler) (ref : Nat) (h : Injective s)
    (hid : s.streams.lookup id = some ref) : ShrinksOff id s (s.markDead [ref]) := by
  refine ⟨fun i r hlook => hlook, ?_, ?_, rfl⟩
  · intro i r hi hlook
    apply heap_markDead_of_notMem
    intro hmem
    exact hi (h i id ref (List.mem_singleton.mp hmem ▸ hlook) hid)
  · intro r hunused
    apply heap_markDead_of_notMem
    intro hmem
    exact hunused id (List.mem_singleton.mp hmem ▸ hid)

theorem shrinksOff_evictOldest (id : Nat) (s : Reassembler) (h : Injective s) :
    ShrinksOff id s (s.evictOldest id) := by
  refine ⟨?_, ?_, ?_, rfl⟩
  · intro i ref hlook
    simp only [evictOldest, lookup_erase_eq] at hlook
    split at hlook
    · cases hlook
    · exact hlook
  · intro i ref hi hlook
    simp only [evictOldest, lookup_erase_eq] at hlook
    split at hlook
    · cases hlook
    · next hne =>
        apply heap_markDead_of_notMem
        intro hmem
        exact hne (h _ _ _ hlook (Option.mem_toList.mp hmem))
  · intro ref hunused
    apply heap_markDead_of_notMem
    intro hmem
    exact hunused _ (Option.mem_toList.mp hmem)

theorem shrinksOff_makeRoom (s : Reassembler) (streamID : Nat) (h : Injective s) :
    ShrinksOff streamID s (s.makeRoom streamID) := by
  unfold makeRoom
  split
  · next prev hprev => exact shrinksOff_markDead _ _ _ h hprev
  · split
    · exact shrinksOff_evictOldest _ _ h
    · exact .refl _ _

/-- After the start section the map holds the new context under `streamID` and,
elsewhere, only streams it held before. -/
structure Installed (s s' : Reassembler) (streamID ref : Nat) (c : GuestContext) : Prop where
  lookup_self : s'.streams.lookup streamID = some ref
  heap_self : ∃ seq started,
    s'.heap ref = some { c with lastSeq := seq, started := started }
  others : ∀ i r, i ≠ streamID → s'.streams.lookup i = some r →
    s.streams.lookup i = some r ∧ s'.heap r = s.heap r
  allocated : s'.allocated = s.allocated

theorem installed_startSection (s : Reassembler) (now : Int) (streamID ref : Nat)
    (c : GuestContext) (h : Injective s) (hc : s.heap ref = some c)
    (hunused : ∀ i, s.streams.lookup i ≠ some ref) :
    Installed s (s.startSection now streamID ref) streamID ref c := by
  have hprune := shrinksOff_prune streamID { s with seq := (s.seq + 1) % 2 ^ 64 } now
  have hroom := hprune.trans
    (shrinksOff_makeRoom _ streamID (hprune.injective h))
  have hheap := (hroom.unused ref hunused).trans hc
  simp only [startSection]
  rw [hheap]
  refine ⟨?_, ?_, ?_, hroom.allocated⟩
  · simp only [lookup_insert_eq, if_pos]
  · simp only [setContext, Function.update_self]
    exact ⟨_, now, rfl⟩
  · intro i r hi hlook
    simp only [setContext, lookup_insert_eq, if_neg hi] at hlook
    have hold := hroom.entry i r hlook
    have hne : r ≠ ref := fun heq => hunused i (heq ▸ hold)
    refine ⟨hold, ?_⟩
    simp only [setContext, Function.update_of_ne hne]
    exact hroom.kept i r hi hlook

/-- Why a start for `streamID` takes the context `ref` out of the map, where it is
under `id`: it is too old, it is the one being replaced, or the map is full and it is
the least recently active one. -/
inductive Reclaims (s : Reassembler) (now : Int) (streamID : Nat) : Nat → Nat → Prop
  | pruned (id ref : Nat) (hlook : s.streams.lookup id = some ref) (htimeout : 0 < s.timeout)
      (hexpired : s.isExpired now ref = true) : Reclaims s now streamID id ref
  | replaced (ref : Nat) (hlook : (s.prune now).streams.lookup streamID = some ref) :
      Reclaims s now streamID streamID ref
  | evicted (ref : Nat) (hnew : (s.prune now).streams.lookup streamID = none)
      (hfull : MaxConcurrentStreams ≤ count (s.prune now).streams)
      (hlook : (s.prune now).streams.lookup ((s.prune now).oldestID streamID) = some ref) :
      Reclaims s now streamID ((s.prune now).oldestID streamID) ref

def bury (c : GuestContext) : GuestContext := { c with dead := true }

theorem heap_markDead_of_mem (s : Reassembler) (refs : List Nat) (ref : Nat)
    (h : ref ∈ refs) : (s.markDead refs).heap ref = (s.heap ref).map bury := by
  simp only [markDead, if_pos h]
  rfl

theorem Reclaims.lookup {s : Reassembler} {now : Int} {streamID id ref : Nat}
    (h : Reclaims s now streamID id ref) : s.streams.lookup id = some ref := by
  cases h with
  | pruned _ _ hlook _ _ => exact hlook
  | replaced _ hlook => exact (shrinksOff_prune 0 s now).entry _ _ hlook
  | evicted _ _ _ hlook => exact (shrinksOff_prune 0 s now).entry _ _ hlook

theorem prune_withSeq (s : Reassembler) (n : Nat) (now : Int) :
    ({ s with seq := n } : Reassembler).prune now = { s.prune now with seq := n } := by
  simp only [prune]
  split
  · rfl
  · rfl

theorem oldestID_withSeq (s : Reassembler) (n streamID : Nat) :
    ({ s with seq := n } : Reassembler).oldestID streamID = s.oldestID streamID := rfl

section Prune

variable (s : Reassembler) (now : Int)

theorem prune_left (id ref : Nat) (hlook : s.streams.lookup id = some ref)
    (hgone : (s.prune now).streams.lookup id ≠ some ref) :
    0 < s.timeout ∧ s.isExpired now ref = true := by
  simp only [prune] at hgone
  split at hgone
  · next htimeout =>
      refine ⟨htimeout, ?_⟩
      by_contra hlive
      apply hgone
      rw [lookup_keepIf, hlook, Option.filter_some, if_pos]
      simpa using hlive
  · exact absurd hlook hgone

theorem heap_prune (ref : Nat) :
    (s.prune now).heap ref = s.heap ref ∨
      ((∃ id, s.streams.lookup id = some ref) ∧ 0 < s.timeout ∧ s.isExpired now ref = true ∧
        (s.prune now).heap ref = (s.heap ref).map bury) := by
  simp only [prune]
  split
  · next htimeout =>
      by_cases hmem : ref ∈ (s.streams.entries.map Sigma.snd).filter (s.isExpired now)
      · right
        obtain ⟨hentry, hexpired⟩ := List.mem_filter.mp hmem
        obtain ⟨e, he, rfl⟩ := List.mem_map.mp hentry
        exact ⟨⟨e.1, AList.mem_lookup_iff.mpr he⟩, htimeout, hexpired,
          heap_markDead_of_mem s _ _ hmem⟩
      · exact Or.inl (heap_markDead_of_notMem s _ ref hmem)
  · exact Or.inl rfl

end Prune

theorem markDead_nil (s : Reassembler) : s.markDead [] = s := by
  simp only [markDead, List.not_mem_nil, if_false]

theorem prune_eq_self (s : Reassembler) (now : Int) (h : 0 < s.timeout → ∀ id ref c,
    s.streams.lookup id = some ref → s.heap ref = some c → now - c.started ≤ s.timeout) :
    s.prune now = s := by
  simp only [prune]
  split
  · next hpos =>
      have hlive : ∀ id ref, s.streams.lookup id = some ref → s.isExpired now ref = false := by
        intro id ref hlook
        cases hc : s.heap ref with
        | none => simp only [isExpired, hc]
        | some c => simpa [isExpired, hc] using h hpos id ref c hlook hc
      have hkeep := keepIf_eq_self (fun _ ref => !s.isExpired now ref) s.streams
        (fun id ref hlook => by simp [hlive id ref hlook])
      have hnone : (s.streams.entries.map Sigma.snd).filter (s.isExpired now) = [] := by
        rw [List.filter_eq_nil_iff]
        intro ref href
        obtain ⟨e, he, rfl⟩ := List.mem_map.mp href
        simp [hlive e.1 e.2 (AList.mem_lookup_iff.mpr he)]
      rw [hnone, markDead_nil, hkeep]
  · rfl

section MakeRoom

variable (s : Reassembler) (streamID : Nat)

theorem makeRoom_left (id ref : Nat) (hlook : s.streams.lookup id = some ref)
    (hgone : (s.makeRoom streamID).streams.lookup id ≠ some ref) :
    s.streams.lookup streamID = none ∧ MaxConcurrentStreams ≤ count s.streams ∧
      id = s.oldestID streamID := by
  cases hself : s.streams.lookup streamID with
  | some prev =>
    simp only [makeRoom, hself] at hgone
    exact absurd hlook hgone
  | none =>
    simp only [makeRoom, hself] at hgone
    split at hgone
    · next hfull =>
        refine ⟨rfl, hfull, ?_⟩
        by_contra hne
        apply hgone
        rw [evictOldest, lookup_erase_eq, if_neg hne]
        exact hlook
    · exact absurd hlook hgone

theorem heap_makeRoom (ref : Nat) :
    (s.makeRoom streamID).heap ref = s.heap ref ∨
      ((s.streams.lookup streamID = some ref ∨
          (s.streams.lookup streamID = none ∧ MaxConcurrentStreams ≤ count s.streams ∧
            s.streams.lookup (s.oldestID streamID) = some ref)) ∧
        (s.makeRoom streamID).heap ref = (s.heap ref).map bury) := by
  cases hself : s.streams.lookup streamID with
  | some prev =>
    simp only [makeRoom, hself]
    by_cases hprev : ref = prev
    · right
      rw [hprev]
      exact ⟨Or.inl rfl, heap_markDead_of_mem s _ _ (by simp)⟩
    · exact Or.inl (heap_markDead_of_notMem s _ _ (by simpa using hprev))
  | none =>
    simp only [makeRoom, hself]
    split
    · next hfull =>
        by_cases hold : s.streams.lookup (s.oldestID streamID) = some ref
        · right
          exact ⟨Or.inr ⟨trivial, hfull, hold⟩,
            heap_markDead_of_mem s _ _ (Option.mem_toList.mpr hold)⟩
        · exact Or.inl (heap_markDead_of_notMem s _ _ fun hmem =>
            hold (Option.mem_toList.mp hmem))
    · exact Or.inl rfl

end MakeRoom

section StartSection

variable (s : Reassembler) (now : Int) (streamID ref : Nat)

/-- The map and the contexts a start finds when it comes to install its own. -/
def cleared : Reassembler := (s.prune now).makeRoom streamID

theorem cleared_eq : (({ s with seq := (s.seq + 1) % 2 ^ 64 } : Reassembler).prune now).makeRoom
      streamID = { s.cleared now streamID with seq := (s.seq + 1) % 2 ^ 64 } := by
  rw [prune_withSeq, cleared]
  simp only [makeRoom, evictOldest, oldestID_withSeq]
  split
  · rfl
  · split
    · rfl
    · rfl

theorem startSection_eq (c : GuestContext) (h : Injective s) (hc : s.heap ref = some c)
    (hunused : ∀ i, s.streams.lookup i ≠ some ref) :
    s.startSection now streamID ref =
      { s.cleared now streamID with
        seq := (s.seq + 1) % 2 ^ 64
        heap := Function.update (s.cleared now streamID).heap ref
          (some { c with lastSeq := (s.seq + 1) % 2 ^ 64, started := now })
        streams := (s.cleared now streamID).streams.insert streamID ref } := by
  have hprune := shrinksOff_prune streamID s now
  have hroom := hprune.trans (shrinksOff_makeRoom _ streamID (hprune.injective h))
  have hheap : (s.cleared now streamID).heap ref = some c :=
    (hroom.unused ref hunused).trans hc
  simp only [startSection, cleared_eq, hheap, setContext]

theorem cleared_left (id r : Nat) (hlook : s.streams.lookup id = some r)
    (hgone : (s.cleared now streamID).streams.lookup id ≠ some r) :
    Reclaims s now streamID id r := by
  by_cases hpruned : (s.prune now).streams.lookup id = some r
  · obtain ⟨hnew, hfull, rfl⟩ := makeRoom_left (s.prune now) streamID id r hpruned hgone
    exact .evicted r hnew hfull hpruned
  · obtain ⟨htimeout, hexpired⟩ := prune_left s now id r hlook hpruned
    exact .pruned id r hlook htimeout hexpired

theorem heap_cleared (r : Nat) :
    (s.cleared now streamID).heap r = s.heap r ∨
      ((∃ id, Reclaims s now streamID id r) ∧
        (s.cleared now streamID).heap r = (s.heap r).map bury) := by
  cases heap_makeRoom (s.prune now) streamID r with
  | inl hsame =>
    cases heap_prune s now r with
    | inl hkept => exact Or.inl (hsame.trans hkept)
    | inr hpruned =>
      obtain ⟨⟨id, hlook⟩, htimeout, hexpired, hheap⟩ := hpruned
      exact Or.inr ⟨⟨id, .pruned id r hlook htimeout hexpired⟩, hsame.trans hheap⟩
  | inr hroom =>
    obtain ⟨hcause, hburied⟩ := hroom
    right
    constructor
    · cases hcause with
      | inl hself => exact ⟨streamID, .replaced r hself⟩
      | inr hold => exact ⟨_, .evicted r hold.1 hold.2.1 hold.2.2⟩
    · refine hburied.trans ?_
      cases heap_prune s now r with
      | inl hkept => rw [hkept]
      | inr hpruned =>
        rw [hpruned.2.2.2, Option.map_map]
        rfl

theorem startSection_left (c : GuestContext) (h : Injective s) (hc : s.heap ref = some c)
    (hunused : ∀ i, s.streams.lookup i ≠ some ref) (id r : Nat)
    (hlook : s.streams.lookup id = some r)
    (hgone : (s.startSection now streamID ref).streams.lookup id ≠ some r) :
    Reclaims s now streamID id r := by
  rw [startSection_eq s now streamID ref c h hc hunused] at hgone
  simp only [lookup_insert_eq] at hgone
  split at hgone
  · next hid =>
      subst hid
      by_cases hpruned : (s.prune now).streams.lookup id = some r
      · exact .replaced r hpruned
      · obtain ⟨htimeout, hexpired⟩ := prune_left s now id r hlook hpruned
        exact .pruned id r hlook htimeout hexpired
  · exact cleared_left s now streamID id r hlook hgone

theorem heap_startSection (c : GuestContext) (h : Injective s) (hc : s.heap ref = some c)
    (hunused : ∀ i, s.streams.lookup i ≠ some ref) (r : Nat) (hr : r ≠ ref) :
    (s.startSection now streamID ref).heap r = s.heap r ∨
      ((∃ id, Reclaims s now streamID id r) ∧
        (s.startSection now streamID ref).heap r = (s.heap r).map bury) := by
  rw [startSection_eq s now streamID ref c h hc hunused]
  simp only [Function.update_of_ne hr]
  exact heap_cleared s now streamID r

theorem Reclaims.heap_cleared {s : Reassembler} {now : Int} {streamID id r : Nat}
    (h : Reclaims s now streamID id r) :
    (s.cleared now streamID).heap r = (s.heap r).map bury := by
  have hroom : (s.prune now).heap r = (s.heap r).map bury →
      (s.cleared now streamID).heap r = (s.heap r).map bury := by
    intro hpruned
    cases heap_makeRoom (s.prune now) streamID r with
    | inl hsame => exact hsame.trans hpruned
    | inr hburied =>
      rw [cleared, hburied.2, hpruned, Option.map_map]
      rfl
  have hprune : (s.cleared now streamID).heap r = ((s.prune now).heap r).map bury →
      (s.cleared now streamID).heap r = (s.heap r).map bury := by
    intro hburied
    cases heap_prune s now r with
    | inl hsame => rw [hburied, hsame]
    | inr hpruned =>
      rw [hburied, hpruned.2.2.2, Option.map_map]
      rfl
  cases h with
  | pruned id r hlook htimeout hexpired =>
    apply hroom
    have hmem : r ∈ (s.streams.entries.map Sigma.snd).filter (s.isExpired now) :=
      List.mem_filter.mpr ⟨List.mem_map.mpr ⟨⟨id, r⟩, AList.mem_lookup_iff.mp hlook, rfl⟩,
        hexpired⟩
    simp only [prune, if_pos htimeout]
    exact heap_markDead_of_mem s _ r hmem
  | replaced r hlook =>
    apply hprune
    simp only [cleared, makeRoom, hlook]
    exact heap_markDead_of_mem (s.prune now) _ r List.mem_cons_self
  | evicted r hnew hfull hlook =>
    apply hprune
    simp only [cleared, makeRoom, hnew, if_pos hfull]
    exact heap_markDead_of_mem (s.prune now) _ r (Option.mem_toList.mpr hlook)

theorem cleared_of_no_reclaims (h : Injective s)
    (hnone : ∀ id r, ¬ Reclaims s now streamID id r) :
    (∀ id, (s.cleared now streamID).streams.lookup id = s.streams.lookup id) ∧
      (s.cleared now streamID).heap = s.heap ∧
      (s.cleared now streamID).allocated = s.allocated := by
  have hprune := shrinksOff_prune streamID s now
  have hroom := hprune.trans (shrinksOff_makeRoom _ streamID (hprune.injective h))
  refine ⟨?_, ?_, hroom.allocated⟩
  · intro id
    cases hlook : s.streams.lookup id with
    | none =>
      rw [Option.eq_none_iff_forall_ne_some]
      intro r hr
      rw [hroom.entry id r hr] at hlook
      cases hlook
    | some r =>
      by_contra hgone
      exact hnone id r (cleared_left s now streamID id r hlook hgone)
  · funext r
    cases heap_cleared s now streamID r with
    | inl hsame => exact hsame
    | inr hburied =>
      obtain ⟨id, hreclaims⟩ := hburied.1
      exact absurd hreclaims (hnone id r)

/-- With room and nothing expired, a start finds everything as it was, except that a
context it replaces is marked. -/
theorem streams_cleared (hroom : count s.streams < MaxConcurrentStreams)
    (hlive : 0 < s.timeout → ∀ id ref c, s.streams.lookup id = some ref →
      s.heap ref = some c → now - c.started ≤ s.timeout) :
    (s.cleared now streamID).streams = s.streams := by
  rw [cleared, prune_eq_self s now hlive]
  simp only [makeRoom]
  split
  · rfl
  · rw [if_neg (Nat.not_le.mpr hroom)]

theorem startSection_streams (hroom : count s.streams < MaxConcurrentStreams)
    (hlive : 0 < s.timeout → ∀ id ref c, s.streams.lookup id = some ref →
      s.heap ref = some c → now - c.started ≤ s.timeout) :
    (s.startSection now streamID ref).streams = s.streams.insert streamID ref := by
  have hstreams := streams_cleared s now streamID hroom hlive
  simp only [startSection, cleared_eq]
  split
  · simp only [setContext, hstreams]
  · rw [hstreams]

end StartSection

section Bound

variable (s : Reassembler)

/-- The scan ends with the value it began with or with that of an entry it met,
and none it met is smaller. -/
theorem scan_spec (f : Nat → Nat) (entries : List (Sigma fun _ : Nat => Nat))
    (best : Nat × Nat) :
    let final := entries.foldl (fun b e => if f e.2 < b.2 then (e.1, f e.2) else b) best
    (final = best ∨ ∃ e ∈ entries, final = (e.1, f e.2)) ∧
      final.2 ≤ best.2 ∧ ∀ e ∈ entries, final.2 ≤ f e.2 := by
  induction entries generalizing best with
  | nil => simp
  | cons e entries ih =>
    simp only [List.foldl_cons]
    by_cases hless : f e.2 < best.2
    · rw [if_pos hless]
      obtain ⟨hfinal, hle, hall⟩ := ih (e.1, f e.2)
      refine ⟨Or.inr ?_, by simp only at hle; omega, ?_⟩
      · cases hfinal with
        | inl heq => exact ⟨e, by simp, heq⟩
        | inr hmem =>
          obtain ⟨e', he', heq⟩ := hmem
          exact ⟨e', by simp [he'], heq⟩
      · intro e' he'
        cases List.mem_cons.mp he' with
        | inl heq => rw [heq]; exact hle
        | inr hmem => exact hall e' hmem
    · rw [if_neg hless]
      obtain ⟨hfinal, hle, hall⟩ := ih best
      refine ⟨?_, hle, ?_⟩
      · cases hfinal with
        | inl heq => exact Or.inl heq
        | inr hmem =>
          obtain ⟨e', he', heq⟩ := hmem
          exact Or.inr ⟨e', by simp [he'], heq⟩
      · intro e' he'
        cases List.mem_cons.mp he' with
        | inl heq => rw [heq]; omega
        | inr hmem => exact hall e' hmem

theorem scan_eq_start (f : Nat → Nat) (entries : List (Sigma fun _ : Nat => Nat))
    (best : Nat × Nat) (h : ∀ e ∈ entries, best.2 ≤ f e.2) :
    entries.foldl (fun b e => if f e.2 < b.2 then (e.1, f e.2) else b) best = best := by
  induction entries with
  | nil => rfl
  | cons e entries ih =>
    rw [List.foldl_cons, if_neg (Nat.not_lt.mpr (h e List.mem_cons_self))]
    exact ih fun e' he' => h e' (List.mem_cons_of_mem e he')

/-- A full map gives up a stream as long as some stream's stamp is below the largest
counter value. -/
theorem oldestID_mem (streamID id ref : Nat) (hlook : s.streams.lookup id = some ref)
    (hseq : s.lastSeqOf ref < 2 ^ 64 - 1) :
    ∃ r, s.streams.lookup (s.oldestID streamID) = some r := by
  obtain ⟨hfinal, -, hall⟩ := scan_spec s.lastSeqOf s.streams.entries (streamID, 2 ^ 64 - 1)
  have hbelow := hall ⟨id, ref⟩ (AList.mem_lookup_iff.mp hlook)
  cases hfinal with
  | inl heq =>
    rw [heq] at hbelow
    simp only at hbelow
    omega
  | inr hmem =>
    obtain ⟨e, he, heq⟩ := hmem
    refine ⟨e.2, ?_⟩
    rw [oldestID, heq]
    exact AList.mem_lookup_iff.mpr he

theorem count_prune_le (now : Int) : count (s.prune now).streams ≤ count s.streams := by
  simp only [prune]
  split
  · exact count_keepIf_le _ _
  · exact Nat.le_refl _

theorem count_makeRoom_insert (streamID ref : Nat)
    (hcount : count s.streams ≤ MaxConcurrentStreams)
    (hseq : ∀ id r, s.streams.lookup id = some r → s.lastSeqOf r < 2 ^ 64 - 1) :
    count ((s.makeRoom streamID).streams.insert streamID ref) ≤ MaxConcurrentStreams := by
  cases hself : s.streams.lookup streamID with
  | some prev =>
    simp only [makeRoom, hself]
    exact (count_insert_of_lookup hself ref).trans_le hcount
  | none =>
    simp only [makeRoom, hself]
    split
    · next hfull =>
        obtain ⟨e, he⟩ : ∃ e, e ∈ s.streams.entries := by
          apply List.exists_mem_of_length_pos
          exact Nat.lt_of_lt_of_le (by decide : 0 < MaxConcurrentStreams) hfull
        have hlook := AList.mem_lookup_iff.mpr he
        obtain ⟨r, hr⟩ := s.oldestID_mem streamID e.1 e.2 hlook (hseq e.1 e.2 hlook)
        have hsize := count_erase s.streams _ r hr
        have habsent : streamID ∉ s.streams.erase (s.oldestID streamID) := by
          rw [← AList.lookup_eq_none, lookup_erase_eq, hself, ite_self]
        rw [evictOldest, count_insert _ _ _ habsent]
        omega
    · next hroom =>
        rw [count_insert _ _ _ (AList.lookup_eq_none.mp hself)]
        omega

end Bound

end ShmIpc.Stream.Go.Reassembler
