import ShmIpc.Library.Halting
import ShmIpc.Stream.PipelinedReport

/-!
`sendChunksPipelined` when nothing fails. Every step brings the caller or a goroutine
closer to its end, and until the call returns somebody can move: a caller that waits for a
token or for the wait group waits for a goroutine, and a goroutine waits for the host only.
-/

namespace ShmIpc.Stream.Go
open Library

variable {τ : Type}

def Reply.succeeds : Reply τ → Bool
  | .failed _ => false
  | .answered respType => respType ≠ .systemError

theorem Reply.error_eq_none {r : Reply τ} (h : r.succeeds = true) (idx : Nat) :
    r.error idx = none := by
  cases r with
  | failed cause => cases h
  | answered respType => exact if_neg (of_decide_eq_true h)

/-- Neither the pool nor the exchange fails. -/
def PipelineAction.succeeds : PipelineAction τ → Bool
  | .refused _ => false
  | .reply _ r => r.succeeds
  | _ => true

namespace PipelinePc

def isReturned : PipelinePc τ → Bool
  | .returned _ => true
  | _ => false

def isRefused : PipelinePc τ → Bool
  | .missed _ _ _ | .deadline _ _ _ => true
  | _ => false

/-- The steps of the caller when `left` chunks have not been launched, those of their
goroutines included. -/
def cost (left : Nat) : PipelinePc τ → Nat
  | .top _ _ => 11 * left + 3
  | .token _ _ => 11 * left + 2
  | .add _ _ => 11 * left + 1
  | .acquire _ _ | .missed _ _ _ | .deadline _ _ _ => 11 * left
  | .launch _ _ _ => 11 * left - 1
  | .leave _ => 4
  | .done _ => 3
  | .join _ => 2
  | .collect => 1
  | .returned _ => 0

end PipelinePc

def WorkerPc.cost : WorkerPc τ → Nat
  | .send => 6
  | .waiting => 5
  | .failed _ => 4
  | .release => 3
  | .token => 2
  | .done => 1
  | .gone => 0

def PipelineState.stepsLeft (P : ChunkPhase) (s : PipelineState τ) : Nat :=
  s.main.cost (P.totalChunks - s.workers.length) + (s.workers.map fun w => w.pc.cost).sum

/-- Nothing has failed so far. -/
structure Unfailing (P : ChunkPhase) (s : PipelineState τ) (log : PipelineLog τ) : Prop where
  inv : PipelineInv P s log s.main
  errors : log.errors = []
  main : s.main.isRefused = false

section Unfailing

variable {P : ChunkPhase} {s s' : PipelineState τ} {log : PipelineLog τ} {n : Nat} {w : Worker τ}

theorem Region.read_eq_none {tokens group bound : Nat} {held : List Nat}
    {read : Option (ChunkError τ)} (h : Region P s log tokens group bound held read)
    (hnone : log.errors = []) : read = none ∧ s.errChan = none := by
  have hreported := h.reported
  rw [hnone] at hreported
  constructor
  · cases hread : read with
    | none => rfl
    | some e => cases hreported.read_mem e hread
  · cases herr : s.errChan with
    | none => rfl
    | some e => cases hreported.mailbox_mem e herr

theorem Unfailing.errChan (h : Unfailing P s log) : s.errChan = none := by
  obtain ⟨tokens, group, bound, held, read, hregion⟩ := h.inv.region
  exact (hregion.read_eq_none h.errors).2

theorem stepsLeft_setWorker {sem wg : Nat} {errChan : Option (ChunkError τ)} {pc : WorkerPc τ}
    (hw : s.workers[n]? = some w) (hcost : pc.cost < w.pc.cost) :
    PipelineState.stepsLeft P
      { s.setWorker n w pc with sem := sem, wg := wg, errChan := errChan } + 1 ≤
        s.stepsLeft P := by
  have hsum : ((s.workers.set n { w with pc := pc }).map fun w => w.pc.cost).sum + w.pc.cost =
      (s.workers.map fun w => w.pc.cost).sum + pc.cost := sum_map_set _ hw _
  simp only [PipelineState.stepsLeft, PipelineState.setWorker, List.length_set]
  omega

theorem stepsLeft_workerStep (hs' : s.workerStep P n = some s') :
    s'.stepsLeft P + 1 ≤ s.stepsLeft P := by
  simp only [PipelineState.workerStep] at hs'
  split at hs'
  · cases hs'
  case h_2 w hw =>
    cases hpc : w.pc with
    | waiting | gone => simp only [hpc, reduceCtorEq] at hs'
    | send =>
      simp only [hpc] at hs'
      split at hs'
      · cases hs'
        exact stepsLeft_setWorker hw (by rw [hpc]; exact Nat.lt_of_sub_eq_succ rfl)
      · cases hs'
        exact stepsLeft_setWorker hw (by rw [hpc]; exact Nat.lt_of_sub_eq_succ rfl)
    | token =>
      simp only [hpc] at hs'
      split at hs'
      · cases hs'
        exact stepsLeft_setWorker hw (by rw [hpc]; exact Nat.lt_of_sub_eq_succ rfl)
      · cases hs'
    | failed | release | done =>
      simp only [hpc, Option.some.injEq] at hs'
      subst hs'
      exact stepsLeft_setWorker hw (by rw [hpc]; exact Nat.lt_of_sub_eq_succ rfl)

theorem stepsLeft_reply {r : Reply τ} (hs' : s.reply n r = some s') :
    s'.stepsLeft P + 1 ≤ s.stepsLeft P := by
  simp only [PipelineState.reply] at hs'
  split at hs'
  · cases hs'
  case h_2 w hw =>
    split at hs'
    case h_1 hpc =>
      split at hs'
      · cases hs'
        exact stepsLeft_setWorker hw (by rw [hpc]; exact Nat.lt_of_sub_eq_succ rfl)
      · cases hs'
        exact stepsLeft_setWorker hw (by rw [hpc]; exact Nat.lt_of_sub_eq_succ rfl)
    · cases hs'

theorem unfailing_mainStep (h : Unfailing P s log) (hs' : s.mainStep P = some s') :
    s'.main.isRefused = false ∧ s'.stepsLeft P + 1 ≤ s.stepsLeft P := by
  have hinv := h.inv
  have hmain := h.main
  have hmove := mainMove_of_step hs'
  simp only [PipelineState.stepsLeft]
  generalize s.main = pc at hinv hmain hmove ⊢
  cases hmove with
  | stop idx offset e hlt herr =>
    rw [h.errChan] at herr
    cases herr
  | retry | abort => cases hmain
  | launch slot idx offset =>
    have hlt := hinv.2.1
    refine ⟨rfl, ?_⟩
    simp only [PipelinePc.cost, List.length_append, List.map_append, List.sum_append_nat,
      List.length_singleton, List.map_singleton, List.sum_singleton, WorkerPc.cost]
    omega
  | next | last | token | add | leave | done | fail | join | collect =>
    refine ⟨rfl, ?_⟩
    simp only [PipelinePc.cost]
    omega

theorem stepsLeft_acquired (h : Unfailing P s log) {slot : Nat} (hs' : s.acquired slot = some s') :
    s'.stepsLeft P + 1 ≤ s.stepsLeft P := by
  have hinv := h.inv
  simp only [PipelineState.acquired] at hs'
  split at hs'
  case h_1 idx offset hpc =>
    cases hs'
    rw [hpc] at hinv
    have hlt := hinv.2.1
    simp only [PipelineState.stepsLeft, hpc, PipelinePc.cost]
    omega
  · cases hs'

theorem clock_eq_none (h : Unfailing P s log) (expired : Bool) : s.clock expired = none := by
  have hmain := h.main
  cases hpc : s.main with
  | deadline =>
    rw [hpc] at hmain
    cases hmain
  | top | token | add | acquire | missed | launch | leave | done | join | collect | returned =>
    simp only [PipelineState.clock, hpc]

theorem errors_step (h : Unfailing P s log) {a : PipelineAction τ} (ha : a.succeeds = true)
    (hs' : s.step P a = some s') : (recordPipeline P s a s' log).errors = [] := by
  cases a with
  | main | acquired => exact h.errors
  | refused cause => cases ha
  | clock expired =>
    rw [PipelineState.step, clock_eq_none h] at hs'
    cases hs'
  | worker n =>
    simp only [recordPipeline]
    split
    case h_1 w hw =>
      obtain ⟨msg, hmsg⟩ := P.sendChunk_isSome w.idx w.offset
      simp only [recordWorker, hmsg]
      split <;> exact h.errors
    · exact h.errors
  | reply n r =>
    simp only [recordPipeline]
    split
    · simp only [recordReply, Reply.error_eq_none ha]
      exact h.errors
    · exact h.errors

theorem isRefused_step (h : Unfailing P s log) {a : PipelineAction τ} (ha : a.succeeds = true)
    (hs' : s.step P a = some s') : s'.main.isRefused = false := by
  cases a with
  | main => exact (unfailing_mainStep h hs').1
  | acquired slot =>
    simp only [PipelineState.step, PipelineState.acquired] at hs'
    split at hs'
    · cases hs'
      rfl
    · cases hs'
  | refused cause => cases ha
  | clock expired =>
    rw [PipelineState.step, clock_eq_none h] at hs'
    cases hs'
  | worker n =>
    rw [(moves_workerStep hs').main]
    exact h.main
  | reply n r =>
    rw [(moves_reply hs').main]
    exact h.main

theorem Unfailing.step (h : Unfailing P s log) {a : PipelineAction τ} (ha : a.succeeds = true)
    (hs' : s.step P a = some s') :
    Unfailing P s' (recordPipeline P s a s' log) ∧ s'.stepsLeft P + 1 ≤ s.stepsLeft P := by
  refine ⟨⟨pipelineInv_step h.inv hs', errors_step h ha hs', isRefused_step h ha hs'⟩, ?_⟩
  cases a with
  | main => exact (unfailing_mainStep h hs').2
  | acquired slot => exact stepsLeft_acquired h hs'
  | refused cause => cases ha
  | clock expired =>
    rw [PipelineState.step, clock_eq_none h] at hs'
    cases hs'
  | worker n => exact stepsLeft_workerStep hs'
  | reply n r => exact stepsLeft_reply hs'

theorem isSome_ite_some {α : Type} {p : Prop} [Decidable p] (x : α) (hp : p) :
    (if p then some x else none).isSome = true := by
  rw [if_pos hp]
  rfl

theorem exists_move_of_live (h : Unfailing P s log) (hw : s.workers[n]? = some w)
    (hlive : w.pc.isLive = true) :
    ∃ a : PipelineAction τ, a.succeeds = true ∧ (s.step P a).isSome = true := by
  cases hpc : w.pc with
  | waiting =>
    refine ⟨.reply n (.answered .streamChunk), rfl, ?_⟩
    simp only [PipelineState.step, PipelineState.reply, hw, hpc, Reply.error]
    rfl
  | send =>
    obtain ⟨msg, hmsg⟩ := P.sendChunk_isSome w.idx w.offset
    refine ⟨.worker n, rfl, ?_⟩
    simp only [PipelineState.step, PipelineState.workerStep, hw, hpc, hmsg, Option.isSome_some]
  | token =>
    obtain ⟨tokens, group, bound, held, read, hregion⟩ := h.inv.region
    have hcount := hregion.sem.countP_le
    have hpos : 0 < s.workers.countP fun w => w.pc.hasToken :=
      List.countP_pos_iff.mpr ⟨w, List.mem_iff_getElem?.mpr ⟨n, hw⟩, by rw [hpc]; rfl⟩
    refine ⟨.worker n, rfl, ?_⟩
    simp only [PipelineState.step, PipelineState.workerStep, hw, hpc]
    exact isSome_ite_some _ (Nat.lt_of_lt_of_le hpos hcount)
  | failed | release | done =>
    refine ⟨.worker n, rfl, ?_⟩
    simp only [PipelineState.step, PipelineState.workerStep, hw, hpc, Option.isSome_some]
  | gone =>
    rw [hpc] at hlive
    cases hlive

theorem Unfailing.progress (h : Unfailing P s log) :
    s.main.isReturned = true ∨
      ∃ a : PipelineAction τ, a.succeeds = true ∧ (s.step P a).isSome = true := by
  have hinv := h.inv
  cases hpc : s.main with
  | returned error => exact Or.inl rfl
  | top idx offset =>
    refine Or.inr ⟨.main, rfl, ?_⟩
    simp only [PipelineState.step, PipelineState.mainStep, hpc, h.errChan]
    split <;> rfl
  | token idx offset =>
    rw [hpc] at hinv
    right
    by_cases hfree : s.sem < P.inFlight
    · refine ⟨.main, rfl, ?_⟩
      simp only [PipelineState.step, PipelineState.mainStep, hpc]
      exact isSome_ite_some _ hfree
    · have hpos : 0 < s.sem := by
        have hone : 0 < P.inFlight := by
          rw [GuestSend.inFlight]
          split
          · exact Nat.one_pos
          · omega
        omega
      obtain ⟨n, w, hw, htoken⟩ := hinv.1.sem.exists_of_lt hpos
      refine exists_move_of_live h hw ?_
      cases hworker : w.pc with
      | gone =>
        rw [hworker] at htoken
        cases htoken
      | send | waiting | failed | release | token | done => rfl
  | add | launch | collect | done =>
    refine Or.inr ⟨.main, rfl, ?_⟩
    simp only [PipelineState.step, PipelineState.mainStep, hpc, Option.isSome_some]
  | acquire idx offset =>
    refine Or.inr ⟨.acquired 0, rfl, ?_⟩
    simp only [PipelineState.step, PipelineState.acquired, hpc, Option.isSome_some]
  | missed | deadline =>
    have hmain := h.main
    rw [hpc] at hmain
    cases hmain
  | leave e =>
    rw [hpc] at hinv
    obtain ⟨bound, hregion⟩ := hinv
    cases (hregion.read_eq_none h.errors).1
  | join error =>
    rw [hpc] at hinv
    right
    cases error with
    | some e =>
      obtain ⟨bound, hregion⟩ := hinv
      cases (hregion.read_eq_none h.errors).1
    | none =>
      by_cases hzero : s.wg = 0
      · refine ⟨.main, rfl, ?_⟩
        simp only [PipelineState.step, PipelineState.mainStep, hpc]
        exact isSome_ite_some _ hzero
      · obtain ⟨n, w, hw, hlive⟩ := hinv.1.wg.exists_of_lt (Nat.pos_of_ne_zero hzero)
        exact exists_move_of_live h hw hlive

theorem unfailing_start (P : ChunkPhase) :
    Unfailing P (PipelineState.start : PipelineState τ) .new :=
  ⟨pipelineInv_start P, rfl, rfl⟩

theorem pipelined_halts (P : ChunkPhase) :
    Halts (checked (fun _ a => a.succeeds) (P.logged τ)) (fun _ => true)
      (fun p => p.1.main.isReturned) (.start, .new) := by
  refine Halts.of_measure (fun p => Unfailing P p.1 p.2) (fun p => p.1.stepsLeft P)
    (unfailing_start P) ?_ ?_
  · intro p a p' h hstep
    simp only [checked] at hstep
    split at hstep
    case isTrue ha =>
      obtain ⟨hs', hlog⟩ := recorded_eq_some hstep
      rw [hlog]
      exact h.step ha hs'
    · cases hstep
  · intro p h
    cases h.progress with
    | inl hreturned => exact Or.inl hreturned
    | inr hmove =>
      obtain ⟨a, ha, hsome⟩ := hmove
      refine Or.inr ⟨a, rfl, ?_⟩
      simp only [checked, if_pos ha, ChunkPhase.logged, recorded, Option.isSome_map]
      exact hsome

theorem unfailing_reachable
    (hr : Reachable (P.logged τ) (fun _ a => a.succeeds = true) (.start, .new) (s, log)) :
    Unfailing P s log :=
  hr.recorded_invariant (Unfailing P) (unfailing_start P)
    fun _ _ _ _ h ha hs' => (h.step ha hs').1

end Unfailing

end ShmIpc.Stream.Go
