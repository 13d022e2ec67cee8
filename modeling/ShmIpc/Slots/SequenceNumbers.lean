import ShmIpc.Library.Residues
import ShmIpc.Segment.Attach
import ShmIpc.Slots.GuestHandle

/-!
The sequence numbers of one segment. Every slot has a number to begin with, set by
`DirectHost::Init` for the host slots and by `NewDirectGuest` for the guest slots, and
every send on a slot carries the slot's number and advances it by the number of slots
of the segment. The sends of a run are taken one by one, in any order and on any slots;
of a send only the two stores that concern its number matter here.
-/

namespace ShmIpc.Slots

open Library Segment

/-- The ways to send, with the arguments that their steps read. -/
inductive SendEntry
  | host (call : HostCall)
  | guestCall (call : GuestCall)
  | handle (send : HandleSend)

/-- The side that sends on a slot. -/
def SendEntry.onHost : SendEntry → Bool
  | .host _ => true
  | .guestCall _ | .handle _ => false

/-- A host's configuration, and where the two processes have mapped the segment. -/
structure Peers where
  config : DirectHost.HostConfig
  autoReclaim : Bool
  hostBase : Nat
  guestBase : Nat

namespace Peers

def total (p : Peers) : Nat := p.config.numHostSlots + p.config.numGuestSlots

def guest (p : Peers) : DirectGuest :=
  .attached p.config.shmName (DirectHost.exchangeHeader p.config p.autoReclaim) p.guestBase

/-- Both sides take the stride from the number of slots: C++ from its configuration, Go
from the length of its slot table. -/
def hostLayout (p : Peers) : Layout where
  fastPathAllowed := p.guest.fastPathAllowed
  msgSeqStride := DirectHost.totalSlots p.config

def guestConfig (p : Peers) : GuestConfig where
  layout := ⟨p.guest.fastPathAllowed, p.guest.slots.length⟩
  guestReclaim := false
  hostReclaim := false

/-- The two stores of a send that concern its number. -/
def number (p : Peers) (s : Slot) : SendEntry → Slot
  | .host call =>
    let stored := (sendStep p.hostLayout 0 s call .storeMsgSeq).1
    (sendStep p.hostLayout 0 stored call (.storeNextSeq stored.msgSeq)).1
  | .guestCall call =>
    let stored := (guestSendStep p.guestConfig 0 s call .storeMsgSeq).1
    (guestSendStep p.guestConfig 0 stored call (.storeNextSeq stored.msgSeq)).1
  | .handle send =>
    let stored := (handleStep p.guestConfig 0 s send .storeMsgSeq).1
    (handleStep p.guestConfig 0 stored send (.storeNextSeq stored.msgSeq)).1

/-- A send on slot `i`, by the side that sends there. -/
def step (p : Peers) (s : Nat → Slot) (a : Nat × SendEntry) : Option (Nat → Slot) :=
  if a.1 < p.guest.slots.length ∧ (a.2.onHost = true ↔ a.1 < p.config.numHostSlots) then
    some (Function.update s a.1 (p.number (s a.1) a.2))
  else none

def newSlot (i : Nat) : Slot where
  state := .free
  gen := 0
  lease := 0
  msgSeq := 0
  reqSize := 0
  respSize := 0
  msgType := .normal
  reqBuffer := []
  respBuffer := []
  activeWait := false
  nextSeq := i + 1

/-- The sends so far: the slot and the number that the header carried. -/
def record (_ : Nat → Slot) (a : Nat × SendEntry) (s' : Nat → Slot) (sends : List (Nat × Nat)) :
    List (Nat × Nat) :=
  sends ++ [(a.1, (s' a.1).msgSeq)]

structure Initial (p : Peers) (s : Nat → Slot) : Prop where
  host : ∀ i h, i < p.config.numHostSlots →
    (DirectHost.slots p.config p.hostBase)[i]? = some h → (s i).nextSeq = h.msgSeq
  guest : ∀ i g, ¬ i < p.config.numHostSlots →
    p.guest.slots[i]? = some g → (s i).nextSeq = g.nextMsgSeq

/-- No two sends on different slots carry the same number, in any run. -/
def GloballyUnique (p : Peers) : Prop :=
  ∀ s₀, p.Initial s₀ → ∀ s sends,
    Reachable (recorded p.step record) (fun _ _ => True) (s₀, []) (s, sends) →
    ∀ e ∈ sends, ∀ e' ∈ sends, e.1 ≠ e'.1 → e.2 ≠ e'.2

theorem getElem_initSlots_msgSeq (config : DirectHost.HostConfig) (n i ptr k : Nat) (hk : k < n) :
    (DirectHost.initSlots config n i ptr)[k]?.map DirectHost.Slot.msgSeq =
      some ((i + k + 1) % 2 ^ 32) := by
  induction n generalizing i ptr k with
  | zero => omega
  | succ n ih =>
    cases k with
    | zero => rfl
    | succ k =>
      have hrest := ih (i + 1) (ptr + DirectHost.perSlotTotal config.payloadSize) k (by omega)
      rw [show i + (k + 1) = i + 1 + k by omega]
      exact hrest

theorem length_initSlots (config : DirectHost.HostConfig) (n i ptr : Nat) :
    (DirectHost.initSlots config n i ptr).length = n := by
  induction n generalizing i ptr with
  | zero => rfl
  | succ n ih => rw [DirectHost.initSlots, List.length_cons, ih]

theorem getElem_openSlots_nextMsgSeq (name : String) (header : ExchangeHeader) (n i ptr k : Nat)
    (hk : k < n) :
    (DirectGuest.openSlots name header n i ptr)[k]?.map DirectGuest.SlotContext.nextMsgSeq =
      some ((i + k + 1) % 2 ^ 32) := by
  induction n generalizing i ptr k with
  | zero => omega
  | succ n ih =>
    cases k with
    | zero => rfl
    | succ k =>
      have hrest := ih (i + 1) (ptr + DirectGuest.perSlotSize header) k (by omega)
      rw [show i + (k + 1) = i + 1 + k by omega]
      exact hrest

def Class (p : Peers) (i seq : Nat) : Prop :=
  ∃ k, seq = (1 + i + k * p.total) % seqPeriod

theorem Class.advance {p : Peers} {i seq : Nat} (h : p.Class i seq) :
    p.Class i ((seq + p.total) % seqPeriod) := by
  obtain ⟨k, rfl⟩ := h
  refine ⟨k + 1, ?_⟩
  rw [Nat.mod_add_mod, Nat.add_mul, Nat.one_mul, Nat.add_assoc]

section

variable {p : Peers} (hmax : p.total ≤ 200000)

include hmax

theorem totalSlots_eq : DirectHost.totalSlots p.config = p.total := by
  unfold total at hmax
  exact Nat.mod_eq_of_lt (by omega)

theorem length_guest_slots : p.guest.slots.length = p.total := by
  refine (DirectGuest.length_openSlots _ _ _ _ _).trans ?_
  exact totalSlots_eq hmax

theorem msgSeq_eq {i : Nat} {h : DirectHost.Slot} (hi : i < p.total)
    (hget : (DirectHost.slots p.config p.hostBase)[i]? = some h) : h.msgSeq = i + 1 := by
  have hseq := getElem_initSlots_msgSeq p.config (DirectHost.totalSlots p.config) 0
    (p.hostBase + exchangeHeaderBytes) i (by rw [totalSlots_eq hmax]; exact hi)
  rw [DirectHost.slots] at hget
  rw [hget, Option.map_some, Option.some.injEq, Nat.mod_eq_of_lt (by omega)] at hseq
  omega

theorem nextMsgSeq_eq {i : Nat} {g : DirectGuest.SlotContext} (hi : i < p.total)
    (hget : p.guest.slots[i]? = some g) : g.nextMsgSeq = i + 1 := by
  have hseq := getElem_openSlots_nextMsgSeq p.config.shmName
    (DirectHost.exchangeHeader p.config p.autoReclaim) (DirectHost.totalSlots p.config) 0
    (p.guestBase + exchangeHeaderBytes) i (by rw [totalSlots_eq hmax]; exact hi)
  have hsame : (DirectGuest.openSlots p.config.shmName
      (DirectHost.exchangeHeader p.config p.autoReclaim) (DirectHost.totalSlots p.config) 0
      (p.guestBase + exchangeHeaderBytes))[i]? = some g := hget
  rw [hsame, Option.map_some, Option.some.injEq, Nat.mod_eq_of_lt (by omega)] at hseq
  omega

theorem initial_iff (s : Nat → Slot) :
    p.Initial s ↔ ∀ i, i < p.total → (s i).nextSeq = i + 1 := by
  have hhost : (DirectHost.slots p.config p.hostBase).length = p.total := by
    rw [← totalSlots_eq hmax]
    exact length_initSlots _ _ _ _
  have hguest := length_guest_slots hmax
  constructor
  · intro hinit i hi
    by_cases hside : i < p.config.numHostSlots
    · have hget := List.getElem?_eq_getElem (hhost ▸ hi)
      rw [hinit.host i _ hside hget, msgSeq_eq hmax hi hget]
    · have hget := List.getElem?_eq_getElem (hguest ▸ hi)
      rw [hinit.guest i _ hside hget, nextMsgSeq_eq hmax hi hget]
  · intro hall
    constructor
    · intro i h hside hget
      have hi : i < p.total := hhost ▸ (List.getElem?_eq_some_iff.mp hget).1
      rw [hall i hi, msgSeq_eq hmax hi hget]
    · intro i g hside hget
      have hi : i < p.total := hguest ▸ (List.getElem?_eq_some_iff.mp hget).1
      rw [hall i hi, nextMsgSeq_eq hmax hi hget]

theorem number_eq (s : Slot) (entry : SendEntry) :
    p.number s entry =
      { s with msgSeq := s.nextSeq, nextSeq := (s.nextSeq + p.total) % seqPeriod } := by
  cases entry with
  | host call =>
    rw [← totalSlots_eq hmax]
    rfl
  | guestCall call | handle send =>
    rw [← length_guest_slots hmax]
    rfl

/-- Every slot stays in its class, and so do the numbers its sends carried. -/
structure Classified (p : Peers) (q : (Nat → Slot) × List (Nat × Nat)) : Prop where
  slots : ∀ i, i < p.total → p.Class i (q.1 i).nextSeq
  sends : ∀ e ∈ q.2, e.1 < p.total ∧ p.Class e.1 e.2

theorem classified_initial {s : Nat → Slot} (hinit : p.Initial s) : p.Classified (s, []) := by
  refine ⟨?_, by intro e he; cases he⟩
  intro i hi
  refine ⟨0, ?_⟩
  rw [(initial_iff hmax s).mp hinit i hi, Nat.zero_mul, Nat.add_zero, Nat.add_comm]
  exact (Nat.mod_eq_of_lt (show 1 + i < 2 ^ 32 by omega)).symm

theorem classified_step {s s' : Nat → Slot} {sends : List (Nat × Nat)} {a : Nat × SendEntry}
    (hq : p.Classified (s, sends)) (hstep : p.step s a = some s') :
    p.Classified (s', record s a s' sends) := by
  unfold step at hstep
  split at hstep
  case isFalse => cases hstep
  case isTrue henabled =>
    cases hstep
    have hi : a.1 < p.total := length_guest_slots hmax ▸ henabled.1
    have hclass := hq.slots a.1 hi
    constructor
    · intro i hlt
      show p.Class i (Function.update s a.1 (p.number (s a.1) a.2) i).nextSeq
      by_cases hia : i = a.1
      · subst hia
        rw [Function.update_self, number_eq hmax]
        exact hclass.advance
      · rw [Function.update_of_ne hia]
        exact hq.slots i hlt
    · intro e he
      rw [record, List.mem_append, List.mem_singleton] at he
      cases he with
      | inl hold => exact hq.sends e hold
      | inr hnew =>
        subst hnew
        rw [Function.update_self, number_eq hmax]
        exact ⟨hi, hclass⟩

theorem send_reachable (q : (Nat → Slot) × List (Nat × Nat)) {i : Nat} (hi : i < p.total) :
    ∃ s', Reachable (recorded p.step record) (fun _ _ => True) q
        (s', q.2 ++ [(i, (q.1 i).nextSeq)]) ∧
      (s' i).nextSeq = ((q.1 i).nextSeq + p.total) % seqPeriod ∧ ∀ j, j ≠ i → s' j = q.1 j := by
  have hentry : ∃ entry : SendEntry, (entry.onHost = true ↔ i < p.config.numHostSlots) := by
    by_cases hside : i < p.config.numHostSlots
    · exact ⟨.host ⟨.acquired, 0, .normal⟩, by simp [SendEntry.onHost, hside]⟩
    · exact ⟨.guestCall ⟨[], .normal⟩, by simp [SendEntry.onHost, hside]⟩
  obtain ⟨entry, hentry⟩ := hentry
  refine ⟨Function.update q.1 i (p.number (q.1 i) entry), ?_, ?_, ?_⟩
  · refine .step q _ (i, entry) .start trivial ?_
    have henabled : i < p.guest.slots.length ∧
        (entry.onHost = true ↔ i < p.config.numHostSlots) :=
      ⟨(length_guest_slots hmax).symm ▸ hi, hentry⟩
    simp only [recorded, step, if_pos henabled, Option.map_some, record, Function.update_self,
      number_eq hmax]
  · rw [Function.update_self, number_eq hmax]
  · intro j hj
    exact Function.update_of_ne hj _ _

theorem carried_reachable (k : Nat) (q : (Nat → Slot) × List (Nat × Nat)) {i : Nat}
    (hi : i < p.total) (hseq : (q.1 i).nextSeq < seqPeriod) :
    ∃ q', Reachable (recorded p.step record) (fun _ _ => True) q q' ∧
      (i, ((q.1 i).nextSeq + k * p.total) % seqPeriod) ∈ q'.2 ∧
      q.2 ⊆ q'.2 ∧ ∀ j, j ≠ i → q'.1 j = q.1 j := by
  induction k generalizing q with
  | zero =>
    obtain ⟨s', hreach, -, hframe⟩ := send_reachable hmax q hi
    refine ⟨_, hreach, ?_, List.subset_append_left _ _, hframe⟩
    rw [Nat.zero_mul, Nat.add_zero, Nat.mod_eq_of_lt hseq]
    exact List.mem_append_right _ (List.mem_singleton_self _)
  | succ k ih =>
    obtain ⟨s', hreach, hnext, hframe⟩ := send_reachable hmax q hi
    obtain ⟨q', hreach', hmem, hsub, hframe'⟩ := ih (s', q.2 ++ [(i, (q.1 i).nextSeq)])
      (by rw [hnext]; exact Nat.mod_lt _ (by decide))
    refine ⟨q', hreach.trans hreach', ?_, ?_, ?_⟩
    · rw [hnext, Nat.mod_add_mod, Nat.add_assoc, Nat.add_comm p.total, ← Nat.succ_mul] at hmem
      exact hmem
    · exact fun e he => hsub (List.mem_append_left _ he)
    · intro j hj
      rw [hframe' j hj]
      exact hframe j hj

theorem both_carried {i j : Nat} (hi : i < p.total) (hj : j < p.total) (hne : i ≠ j) (a b : Nat) :
    ∃ q, Reachable (recorded p.step record) (fun _ _ => True) (newSlot, []) q ∧
      (i, (1 + i + a * p.total) % seqPeriod) ∈ q.2 ∧
      (j, (1 + j + b * p.total) % seqPeriod) ∈ q.2 := by
  have hlt : ∀ k, k < p.total → (newSlot k).nextSeq < seqPeriod := fun k hk =>
    show k + 1 < 2 ^ 32 by omega
  obtain ⟨q, hreach, hmem, -, hframe⟩ := carried_reachable hmax a (newSlot, []) hi (hlt i hi)
  have hsame : q.1 j = newSlot j := hframe j (Ne.symm hne)
  obtain ⟨q', hreach', hmem', hsub, -⟩ := carried_reachable hmax b q hj (hsame ▸ hlt j hj)
  refine ⟨q', hreach.trans hreach', hsub ?_, ?_⟩
  · rw [Nat.add_comm 1 i]
    exact hmem
  · rw [hsame] at hmem'
    rw [Nat.add_comm 1 j]
    exact hmem'

theorem initial_newSlot : p.Initial newSlot :=
  (initial_iff hmax newSlot).mpr fun _ _ => rfl

end

/-- Sends on different slots carry different numbers in every run exactly if the number
of slots divides the period of the numbers. -/
theorem globallyUnique_iff (p : Peers) (hpos : 1 ≤ p.total) (hmax : p.total ≤ 200000) :
    p.GloballyUnique ↔ p.total ∣ 2 ^ 32 := by
  show _ ↔ p.total ∣ seqPeriod
  rw [← strides_disjoint_iff 1 hpos]
  constructor
  · intro hunique i hi j hj hne a b heq
    obtain ⟨⟨s, sends⟩, hreach, hmem, hmem'⟩ := both_carried hmax hi hj hne a b
    exact hunique newSlot (initial_newSlot hmax) s sends hreach _ hmem _ hmem' hne heq
  · intro hdisjoint s₀ hinit s sends hreach e he e' he' hne heq
    have hclass := hreach.recorded_invariant (fun s sends => p.Classified (s, sends))
      (classified_initial hmax hinit) (fun _ _ _ _ hq _ hstep => classified_step hmax hq hstep)
    obtain ⟨hlt, k, hk⟩ := hclass.sends e he
    obtain ⟨hlt', k', hk'⟩ := hclass.sends e' he'
    exact hdisjoint e.1 hlt e'.1 hlt' hne k k' (by rw [← hk, ← hk', heq])

/-- A segment of `n` slots, the last of them a guest slot. -/
def smallSegment (n : Nat) : Peers where
  config := { shmName := "shm", numHostSlots := n - 1, numGuestSlots := 1 }
  autoReclaim := false
  hostBase := 4096
  guestBase := 8192

theorem globallyUnique_four : (smallSegment 4).GloballyUnique :=
  (globallyUnique_iff (smallSegment 4) (by decide) (by decide)).mpr (by decide)

/-- With two host slots and a guest slot, some send on the first slot and the first send
on the guest slot carry the number 3. -/
theorem number_carried_twice :
    (smallSegment 3).Initial newSlot ∧ ∃ s sends,
      Reachable (recorded (smallSegment 3).step record) (fun _ _ => True) (newSlot, []) (s, sends) ∧
      (0, 3) ∈ sends ∧ (2, 3) ∈ sends := by
  refine ⟨initial_newSlot (by decide), ?_⟩
  obtain ⟨⟨s, sends⟩, hreach, hmem, hmem'⟩ := both_carried (p := smallSegment 3) (by decide)
    (show 0 < 3 by decide) (show 2 < 3 by decide) (by decide) 1431655766 0
  exact ⟨s, sends, hreach, hmem, hmem'⟩

end Peers

end ShmIpc.Slots
