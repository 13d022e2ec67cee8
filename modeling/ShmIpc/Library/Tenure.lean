import Mathlib.Data.List.Nodup
import Mathlib.Logic.Function.Basic

/-!
A ledger of tenures. A tenure is granted once, is held by one holder at a time, may pass
from holder to holder, and ends once; a tenure that ends may be handed back. The ledger
takes down what it is told: that nothing is handed back twice is a fact about a run in
which only the holder of a tenure that has not ended ends it.
-/

namespace ShmIpc.Library

variable {ι : Type}

structure TenureLedger (ι : Type) where
  granted : Nat
  holder : ι → Option Nat
  ended : List Nat
  returned : List Nat

namespace TenureLedger

def new (ι : Type) : TenureLedger ι where
  granted := 0
  holder := fun _ => none
  ended := []
  returned := []

/-- The tenure of `v` ends, with or without its object being handed back. -/
def finish (l : TenureLedger ι) (v : ι) (back : Bool) : TenureLedger ι :=
  match l.holder v with
  | none => l
  | some a => { l with
      ended := l.ended ++ [a]
      returned := if back then l.returned ++ [a] else l.returned }

/-- `v` holds tenure `a`, which has not ended. -/
def Live (l : TenureLedger ι) (v : ι) (a : Nat) : Prop :=
  l.holder v = some a ∧ a ∉ l.ended

/-- No tenure has two holders, and none has been handed back twice. -/
structure Linear (l : TenureLedger ι) : Prop where
  held : ∀ v a, l.holder v = some a → a < l.granted
  unique : ∀ v w a, l.holder v = some a → l.holder w = some a → v = w
  ended : ∀ a ∈ l.ended, a < l.granted
  returned : ∀ a ∈ l.returned, a ∈ l.ended
  once : l.returned.Nodup

variable {l : TenureLedger ι} {v w : ι} {a : Nat}

theorem linear_new : (new ι).Linear where
  held := by
    intro v a h
    cases h
  unique := by
    intro v w a h
    cases h
  ended := by
    intro a h
    cases h
  returned := by
    intro a h
    cases h
  once := List.nodup_nil

theorem finish_of_holder (h : l.holder v = some a) (back : Bool) :
    l.finish v back = { l with
      ended := l.ended ++ [a]
      returned := if back then l.returned ++ [a] else l.returned } := by
  rw [finish, h]

theorem Linear.finish (h : l.Linear) (hlive : l.Live v a) (back : Bool) :
    (l.finish v back).Linear := by
  obtain ⟨hv, hnew⟩ := hlive
  rw [finish_of_holder hv]
  refine ⟨h.held, h.unique, ?_, ?_, ?_⟩
  · intro b hb
    rw [List.mem_append, List.mem_singleton] at hb
    cases hb with
    | inl hold => exact h.ended b hold
    | inr hlast => exact hlast ▸ h.held v a hv
  · intro b hb
    cases back with
    | false => exact List.mem_append_left _ (h.returned b hb)
    | true =>
      cases List.mem_append.mp hb with
      | inl hold => exact List.mem_append_left _ (h.returned b hold)
      | inr hlast => exact List.mem_append_right _ hlast
  · cases back with
    | false => exact h.once
    | true =>
      refine List.Nodup.append h.once (List.nodup_singleton a) ?_
      intro b hb hlast
      rw [List.mem_singleton] at hlast
      exact hnew (hlast ▸ h.returned b hb)

theorem holder_finish (l : TenureLedger ι) (v : ι) (back : Bool) :
    (l.finish v back).holder = l.holder := by
  unfold finish
  split <;> rfl

theorem granted_finish (l : TenureLedger ι) (v : ι) (back : Bool) :
    (l.finish v back).granted = l.granted := by
  unfold finish
  split <;> rfl

theorem mem_ended_finish (h : l.holder v = some a) (back : Bool) (b : Nat) :
    b ∈ (l.finish v back).ended ↔ b ∈ l.ended ∨ b = a := by
  rw [finish_of_holder h, List.mem_append, List.mem_singleton]

theorem mem_returned_finish (h : l.holder v = some a) (back : Bool) (b : Nat) :
    b ∈ (l.finish v back).returned ↔ b ∈ l.returned ∨ back = true ∧ b = a := by
  rw [finish_of_holder h]
  cases back with
  | false => simp only [Bool.false_eq_true, if_false, false_and, or_false]
  | true => simp only [if_true, List.mem_append, List.mem_singleton, true_and]

/-- The other tenures go on. -/
theorem Linear.live_finish (h : l.Linear) (hw : l.Live w a) (hwv : w ≠ v) (back : Bool) :
    (l.finish v back).Live w a := by
  refine ⟨holder_finish l v back ▸ hw.1, ?_⟩
  cases hv : l.holder v with
  | none =>
    rw [TenureLedger.finish, hv]
    exact hw.2
  | some b =>
    rw [mem_ended_finish hv]
    intro hmem
    cases hmem with
    | inl hold => exact hw.2 hold
    | inr hlast => exact hwv (h.unique w v a hw.1 (hlast ▸ hv))

/-- A tenure that nobody has any more. -/
def Gone (l : TenureLedger ι) (a : Nat) : Prop :=
  a < l.granted ∧ ∀ w, ¬ l.Live w a

theorem Gone.finish (h : l.Gone a) (v : ι) (back : Bool) : (l.finish v back).Gone a := by
  refine ⟨granted_finish l v back ▸ h.1, fun w hw => h.2 w ⟨holder_finish l v back ▸ hw.1, ?_⟩⟩
  intro hmem
  refine hw.2 ?_
  cases hv : l.holder v with
  | none =>
    rw [TenureLedger.finish, hv]
    exact hmem
  | some b => exact (mem_ended_finish hv back a).mpr (Or.inl hmem)

/-- What is handed back later is another tenure. -/
theorem Gone.mem_returned_finish (h : l.Gone a) {b : Nat} (hv : l.Live v b) (back : Bool) :
    a ∈ (l.finish v back).returned ↔ a ∈ l.returned := by
  rw [TenureLedger.mem_returned_finish hv.1]
  refine ⟨fun hmem => ?_, Or.inl⟩
  cases hmem with
  | inl hold => exact hold
  | inr hlast => exact absurd (hlast.2 ▸ hv) (h.2 v)

theorem Linear.gone_finish (h : l.Linear) (hv : l.holder v = some a) (back : Bool) :
    (l.finish v back).Gone a :=
  ⟨granted_finish l v back ▸ h.held v a hv,
    fun _ hw => hw.2 ((mem_ended_finish hv back a).mpr (Or.inr rfl))⟩

variable [DecidableEq ι]

def grant (l : TenureLedger ι) (v : ι) : TenureLedger ι :=
  { l with granted := l.granted + 1, holder := Function.update l.holder v (some l.granted) }

def drop (l : TenureLedger ι) (v : ι) : TenureLedger ι :=
  { l with holder := Function.update l.holder v none }

def transfer (l : TenureLedger ι) (dst src : ι) : TenureLedger ι :=
  { l with holder := Function.update (Function.update l.holder dst (l.holder src)) src none }

theorem holder_grant (l : TenureLedger ι) (v w : ι) :
    (l.grant v).holder w = if w = v then some l.granted else l.holder w :=
  Function.update_apply l.holder v (some l.granted) w

theorem holder_drop (l : TenureLedger ι) (v w : ι) :
    (l.drop v).holder w = if w = v then none else l.holder w :=
  Function.update_apply l.holder v none w

theorem Linear.grant (h : l.Linear) (v : ι) : (l.grant v).Linear where
  held := by
    intro w a hw
    rw [holder_grant] at hw
    split at hw
    · cases hw
      exact Nat.lt_succ_self _
    · exact Nat.lt_succ_of_lt (h.held w a hw)
  unique := by
    intro w w' a hw hw'
    rw [holder_grant] at hw hw'
    split at hw
    case isTrue hwv =>
      split at hw'
      case isTrue hwv' => rw [hwv, hwv']
      case isFalse =>
        cases hw
        exact absurd (h.held w' _ hw') (Nat.lt_irrefl _)
    case isFalse =>
      split at hw'
      case isTrue =>
        cases hw'
        exact absurd (h.held w _ hw) (Nat.lt_irrefl _)
      case isFalse => exact h.unique w w' a hw hw'
  ended := fun a ha => Nat.lt_succ_of_lt (h.ended a ha)
  returned := h.returned
  once := h.once

theorem holder_of_drop (h : (l.drop v).holder w = some a) : w ≠ v ∧ l.holder w = some a := by
  rw [holder_drop] at h
  split at h
  · cases h
  case isFalse hwv => exact ⟨hwv, h⟩

theorem Linear.drop (h : l.Linear) (v : ι) : (l.drop v).Linear where
  held := fun w a hw => h.held w a (holder_of_drop hw).2
  unique := fun w w' a hw hw' => h.unique w w' a (holder_of_drop hw).2 (holder_of_drop hw').2
  ended := h.ended
  returned := h.returned
  once := h.once

/-- After a transfer whoever holds a tenure held it before, or has it from `src`. -/
theorem holder_transfer (l : TenureLedger ι) (v w u : ι) :
    (l.transfer v w).holder u =
      if u = w then none else if u = v then l.holder w else l.holder u := by
  simp only [transfer]
  by_cases huw : u = w
  · rw [huw, Function.update_self, if_pos rfl]
  · rw [Function.update_of_ne huw, if_neg huw]
    by_cases huv : u = v
    · rw [huv, Function.update_self, if_pos rfl]
    · rw [Function.update_of_ne huv, if_neg huv]

theorem Linear.transfer (h : l.Linear) (v w : ι) : (l.transfer v w).Linear where
  held := by
    intro u a hu
    rw [holder_transfer] at hu
    split at hu
    · cases hu
    · split at hu
      · exact h.held w a hu
      · exact h.held u a hu
  unique := by
    intro u u' a hu hu'
    rw [holder_transfer] at hu hu'
    split at hu
    · cases hu
    case isFalse huw =>
      split at hu'
      · cases hu'
      case isFalse huw' =>
        split at hu
        case isTrue huv =>
          split at hu'
          case isTrue huv' => rw [huv, huv']
          case isFalse => exact absurd (h.unique u' w a hu' hu) huw'
        case isFalse =>
          split at hu'
          case isTrue => exact absurd (h.unique u w a hu hu') huw
          case isFalse => exact h.unique u u' a hu hu'
  ended := h.ended
  returned := h.returned
  once := h.once

theorem Linear.live_grant (h : l.Linear) (v : ι) : (l.grant v).Live v l.granted :=
  ⟨(holder_grant l v v).trans (if_pos rfl), fun hmem => Nat.lt_irrefl _ (h.ended _ hmem)⟩

theorem Live.grant (h : l.Live w a) (hwv : w ≠ v) : (l.grant v).Live w a :=
  ⟨(holder_grant l v w).trans ((if_neg hwv).trans h.1), h.2⟩

theorem Live.drop (h : l.Live w a) (hwv : w ≠ v) : (l.drop v).Live w a :=
  ⟨(holder_drop l v w).trans ((if_neg hwv).trans h.1), h.2⟩

theorem Live.transfer_src (h : l.Live w a) (hvw : v ≠ w) : (l.transfer v w).Live v a := by
  refine ⟨?_, h.2⟩
  rw [holder_transfer, if_neg hvw, if_pos rfl]
  exact h.1

theorem Live.transfer_other {u : ι} (h : l.Live u a) (huv : u ≠ v) (huw : u ≠ w) :
    (l.transfer v w).Live u a := by
  refine ⟨?_, h.2⟩
  rw [holder_transfer, if_neg huw, if_neg huv]
  exact h.1

theorem Gone.grant (h : l.Gone a) (v : ι) : (l.grant v).Gone a := by
  refine ⟨Nat.lt_succ_of_lt h.1, fun w hw => ?_⟩
  obtain ⟨hholder, hnew⟩ := hw
  rw [holder_grant] at hholder
  split at hholder
  · cases hholder
    exact Nat.lt_irrefl _ h.1
  · exact h.2 w ⟨hholder, hnew⟩

theorem Gone.drop (h : l.Gone a) (v : ι) : (l.drop v).Gone a :=
  ⟨h.1, fun w hw => h.2 w ⟨(holder_of_drop hw.1).2, hw.2⟩⟩

theorem Linear.gone_drop (h : l.Linear) (hv : l.holder v = some a) : (l.drop v).Gone a :=
  ⟨h.held v a hv, fun w hw =>
    (holder_of_drop hw.1).1 (h.unique w v a (holder_of_drop hw.1).2 hv)⟩

theorem Gone.transfer (h : l.Gone a) (v w : ι) : (l.transfer v w).Gone a := by
  refine ⟨h.1, fun u hu => ?_⟩
  obtain ⟨hholder, hnew⟩ := hu
  rw [holder_transfer] at hholder
  split at hholder
  · cases hholder
  · split at hholder
    · exact h.2 w ⟨hholder, hnew⟩
    · exact h.2 u ⟨hholder, hnew⟩

end TenureLedger

end ShmIpc.Library
