import ShmIpc.Stream.GuestSender
import ShmIpc.Stream.PipelinedReport

/-!
The two models of `sendChunksPipelined` agree. In `GuestSendState` the call stands in its
surroundings, with slots and a host that answers, and takes several steps of the source at
once; in `PipelineState` every step is one of its own, and slots and answers come from
anywhere. A run of the former is one of the latter from the end of `sendStart` on.

A search for a slot that ends at its deadline while an error waits in the channel is left
out: there the coarser model does not say whether the error came before the last look.
-/

namespace ShmIpc.Stream.Go
open Library

def SendError.inPhase : SendError → ChunkError Unit
  | .bufferOverflow => .bufferOverflow
  | .chunkRejected idx => .rejected idx
  | _ => .noFreeSlot ()

/-- Where the calling goroutine is in `sendChunksPipelined`. -/
def MainPc.inPhase : MainPc → Option (PipelinePc Unit)
  | .top idx offset => some (.top idx offset)
  | .token idx offset => some (.token idx offset)
  | .acquire idx offset => some (.acquire idx offset)
  | .join error => some (.join (error.map SendError.inPhase))
  | .returned error => some (.returned (error.map SendError.inPhase))
  | _ => none

/-- The goroutine of a chunk in both models. -/
inductive SameWorker (idx : Nat) : ChunkPc → Option (Worker Unit) → Prop
  | unborn : SameWorker idx .unborn none
  | launched (slot offset : Nat) :
      SameWorker idx (.launched slot offset) (some ⟨slot, idx, offset, .send⟩)
  | waiting (slot offset : Nat) :
      SameWorker idx (.waiting slot) (some ⟨slot, idx, offset, .waiting⟩)
  | sent (slot offset : Nat) : SameWorker idx (.sent slot) (some ⟨slot, idx, offset, .release⟩)
  | released (slot offset : Nat) : SameWorker idx .released (some ⟨slot, idx, offset, .token⟩)
  | tokenBack (slot offset : Nat) : SameWorker idx .tokenBack (some ⟨slot, idx, offset, .done⟩)
  | finished (slot offset : Nat) : SameWorker idx .finished (some ⟨slot, idx, offset, .gone⟩)

structure Shows (s : GuestSendState) (p : PipelineState Unit) : Prop where
  main : s.main.inPhase = some p.main
  sem : p.sem = s.sem
  wg : p.wg = s.wg
  errChan : (∀ error, s.main ≠ .returned error) → p.errChan = s.errChan.map SendError.inPhase
  chunks : ∀ idx, SameWorker idx (s.chunks idx) p.workers[idx]?

/-- A state that the finer model comes to. -/
def PipelineRuns (P : ChunkPhase) (p : PipelineState Unit) : Prop :=
  ∃ log, Reachable (P.logged Unit) (fun _ _ => True) (.start, .new) (p, log)

section Runs

variable {P : ChunkPhase} {p p' : PipelineState Unit}

theorem PipelineRuns.step (h : PipelineRuns P p) {a : PipelineAction Unit}
    (hstep : p.step P a = some p') : PipelineRuns P p' := by
  obtain ⟨log, hr⟩ := h
  refine ⟨recordPipeline P p a p' log, .step _ _ a hr trivial ?_⟩
  simp only [ChunkPhase.logged, recorded, hstep, Option.map_some]

theorem PipelineRuns.inv (h : PipelineRuns P p) : ∃ log, PipelineInv P p log p.main := by
  obtain ⟨log, hr⟩ := h
  exact ⟨log, pipelineInv_reachable hr⟩

theorem PipelineRuns.sem_pos (h : PipelineRuns P p) {n : Nat} {w : Worker Unit}
    (hw : p.workers[n]? = some w) (htoken : w.pc.hasToken = true) : 0 < p.sem := by
  obtain ⟨log, hinv⟩ := h.inv
  obtain ⟨tokens, group, bound, held, read, hregion⟩ := hinv.region
  refine Nat.lt_of_lt_of_le ?_ hregion.sem.countP_le
  exact List.countP_pos_iff.mpr ⟨w, List.mem_iff_getElem?.mpr ⟨n, hw⟩, htoken⟩

/-- The caller gives its token back and joins the goroutines. -/
theorem PipelineRuns.leave (h : PipelineRuns P p) {e : ChunkError Unit} (hmain : p.main = .leave e) :
    PipelineRuns P { p with sem := p.sem - 1, wg := p.wg - 1, main := .join (some e) } := by
  obtain ⟨log, hinv⟩ := h.inv
  rw [hmain] at hinv
  obtain ⟨bound, hregion⟩ := hinv
  have hpos : 0 < p.sem := by
    have hsem := hregion.sem
    rw [Counts] at hsem
    omega
  have hleft : PipelineRuns P { p with sem := p.sem - 1, main := .done e } :=
    h.step (a := .main) (by simp only [PipelineState.step, PipelineState.mainStep, hmain, if_pos hpos])
  exact hleft.step (a := .main) rfl

end Runs

section Steps

variable {P : ChunkPhase} {s s' : GuestSendState} {p : PipelineState Unit}

/-- The goroutine of one chunk moves in both models. -/
theorem Shows.move (h : Shows s p) {idx sem sem' wg wg' slot offset : Nat} {pc : ChunkPc}
    {wpc wpc' : WorkerPc Unit} {errChan : Option SendError}
    {errChan' : Option (ChunkError Unit)} {slots : Nat → GuestSlotUse}
    (hw : p.workers[idx]? = some ⟨slot, idx, offset, wpc⟩)
    (hsame : SameWorker idx pc (some ⟨slot, idx, offset, wpc'⟩)) (hsem : sem' = sem)
    (hwg : wg' = wg)
    (hchan : (∀ error, s.main ≠ .returned error) → errChan' = errChan.map SendError.inPhase) :
    Shows { s.setChunk idx pc with sem := sem, wg := wg, errChan := errChan, slots := slots }
      { p.setWorker idx ⟨slot, idx, offset, wpc⟩ wpc' with
        sem := sem', wg := wg', errChan := errChan' } where
  main := h.main
  sem := hsem
  wg := hwg
  errChan := hchan
  chunks i := by
    obtain ⟨hlt, -⟩ := List.getElem?_eq_some_iff.mp hw
    simp only [GuestSendState.setChunk, PipelineState.setWorker, List.getElem?_set]
    by_cases hi : idx = i
    · subst hi
      rw [Function.update_self, if_pos rfl, if_pos hlt]
      exact hsame
    · rw [Function.update_of_ne (Ne.symm hi), if_neg hi]
      exact h.chunks i

theorem inPhase_offer (errChan : Option SendError) (e : SendError) :
    offer (errChan.map SendError.inPhase) e.inPhase =
      (some (errChan.getD e)).map SendError.inPhase := by
  cases errChan with
  | none => rfl
  | some first => rfl

theorem shows_main (hruns : PipelineRuns P p) (h : Shows s p)
    (hstep : s.mainStep P.toGuestSend = some s') : ∃ p', PipelineRuns P p' ∧ Shows s' p' := by
  have hgoes := GuestSendState.mainGoes_of_step hstep
  have hmain := h.main
  have hchan := h.errChan
  generalize s.main = pc at hgoes hmain hchan
  cases hgoes with
  | tooLarge | enter | startFailed | startOnly | startInline | startPipelined | inlineEnd
  | inlineFailed | inlineNext => cases hmain
  | stop idx offset e hmore he =>
    have hpc := (Option.some.inj hmain).symm
    have hfull : p.errChan = some e.inPhase := by
      rw [hchan (by rintro _ ⟨⟩), he]
      rfl
    refine ⟨{ p with errChan := none, main := .join (some e.inPhase) },
      hruns.step (a := .main) ?_, rfl, h.sem, h.wg, fun _ => rfl, h.chunks⟩
    simp only [PipelineState.step, PipelineState.mainStep, hpc, if_pos hmore, hfull]
  | next idx offset hmore he =>
    have hpc := (Option.some.inj hmain).symm
    have hempty : p.errChan = none := by
      rw [hchan (by rintro _ ⟨⟩), he]
      rfl
    refine ⟨{ p with main := .token idx offset }, hruns.step (a := .main) ?_, rfl, h.sem, h.wg,
      fun _ => hchan (by rintro _ ⟨⟩), h.chunks⟩
    simp only [PipelineState.step, PipelineState.mainStep, hpc, if_pos hmore, hempty]
  | last idx offset hend =>
    have hpc := (Option.some.inj hmain).symm
    refine ⟨{ p with main := .join none }, hruns.step (a := .main) ?_, rfl, h.sem, h.wg,
      fun _ => hchan (by rintro _ ⟨⟩), h.chunks⟩
    simp only [PipelineState.step, PipelineState.mainStep, hpc, if_neg hend]
  | token idx offset hsem =>
    have hpc := (Option.some.inj hmain).symm
    have htaken : PipelineRuns P { p with sem := p.sem + 1, main := .add idx offset } := by
      apply hruns.step (a := .main)
      simp only [PipelineState.step, PipelineState.mainStep, hpc, h.sem, if_pos hsem]
    exact ⟨_, htaken.step (a := .main) rfl, rfl, congrArg (· + 1) h.sem,
      congrArg (· + 1) h.wg, fun _ => hchan (by rintro _ ⟨⟩), h.chunks⟩
  | join error hwg =>
    have hpc := (Option.some.inj hmain).symm
    have hzero : p.wg = 0 := h.wg.trans hwg
    cases error with
    | some e =>
      refine ⟨{ p with main := .returned (some e.inPhase) }, hruns.step (a := .main) ?_, rfl,
        h.sem, h.wg, fun hreturned => absurd rfl (hreturned _), h.chunks⟩
      simp only [PipelineState.step, PipelineState.mainStep, hpc, Option.map_some, if_pos hzero]
    | none =>
      have hjoined : PipelineRuns P { p with main := .collect } := by
        apply hruns.step (a := .main)
        simp only [PipelineState.step, PipelineState.mainStep, hpc, Option.map_none,
          if_pos hzero]
      refine ⟨_, hjoined.step (a := .main) rfl, ?_, h.sem, h.wg,
        fun hreturned => absurd rfl (hreturned _), h.chunks⟩
      rw [hchan (by rintro _ ⟨⟩)]
      rfl

theorem shows_acquire (hsize : P.data.length ≤ MaxStreamSize) (hruns : PipelineRuns P p)
    (h : Shows s p) {slot : Nat} (hstep : s.acquire P.toGuestSend slot = some s') :
    ∃ p', PipelineRuns P p' ∧ Shows s' p' := by
  obtain ⟨-, htakes⟩ := GuestSendState.mainTakes_of_acquire hstep
  have hmain := h.main
  have hchan := h.errChan
  generalize s.main = pc at htakes hmain hchan
  cases htakes with
  | noStreamHeader | noChunkHeader | start | inline | inlineTooLong => cases hmain
  | launch idx offset =>
    have hpc := (Option.some.inj hmain).symm
    have hidx : idx = p.workers.length := by
      obtain ⟨log, hinv⟩ := hruns.inv
      rw [hpc] at hinv
      obtain ⟨-, hlt, hidx, -⟩ := hinv
      rw [P.lt_totalChunks] at hlt
      have hle := Nat.le_mul_of_pos_right p.workers.length P.maxPayload_pos
      rw [hidx]
      apply Nat.mod_eq_of_lt
      simp only [MaxStreamSize] at hsize
      omega
    have hheld : PipelineRuns P { p with main := .launch slot idx offset } := by
      apply hruns.step (a := .acquired slot)
      simp only [PipelineState.step, PipelineState.acquired, hpc]
    refine ⟨_, hheld.step (a := .main) rfl, rfl, h.sem, h.wg,
      fun _ => hchan (by rintro _ ⟨⟩), ?_⟩
    intro i
    simp only [GuestSendState.setSlot, GuestSendState.setChunk]
    by_cases hi : i = idx
    · subst hi
      rw [Function.update_self, hidx, List.getElem?_concat_length, ← hidx]
      exact .launched slot offset
    · rw [Function.update_of_ne hi]
      have hsame : (p.workers ++ [⟨slot, idx, offset, .send⟩])[i]? = p.workers[i]? := by
        rw [List.getElem?_append]
        split
        · rfl
        · rw [List.getElem?_eq_none (by simp; omega), List.getElem?_eq_none (by omega)]
      rw [hsame]
      exact h.chunks i

/-- The search for a slot is given up. -/
theorem shows_leave (h : Shows s p) (e : SendError) (chan : Option SendError)
    (hruns : PipelineRuns P { p with
      errChan := chan.map SendError.inPhase, main := .leave e.inPhase }) :
    ∃ p', PipelineRuns P p' ∧ Shows { s.leave e with errChan := chan } p' := by
  refine ⟨_, hruns.leave rfl, rfl, ?_, ?_, fun _ => rfl, h.chunks⟩
  · exact congrArg (· - 1) h.sem
  · exact congrArg (· - 1) h.wg

theorem shows_giveUp (hruns : PipelineRuns P p) (h : Shows s p) {idx offset : Nat}
    (hmain : s.main = .acquire idx offset) :
    PipelineRuns P { p with main := .missed idx offset () } ∧
      p.errChan = s.errChan.map SendError.inPhase := by
  have hpc := h.main
  rw [hmain] at hpc
  refine ⟨hruns.step (a := .refused ()) ?_, h.errChan (by rw [hmain]; rintro _ ⟨⟩)⟩
  simp only [PipelineState.step, PipelineState.refused, (Option.some.inj hpc).symm]

theorem shows_acquireTimeout (hruns : PipelineRuns P p) (h : Shows s p)
    (hnone : s.errChan = none) (hstep : s.acquireTimeout P.toGuestSend = some s') :
    ∃ p', PipelineRuns P p' ∧ Shows s' p' := by
  have hpc := h.main
  unfold GuestSendState.acquireTimeout at hstep
  cases hmain : s.main with
  | acquire idx offset =>
    simp only [hmain, Option.some.injEq] at hstep
    subst hstep
    obtain ⟨hmissed, hchan⟩ := shows_giveUp hruns h hmain
    rw [hnone, Option.map_none] at hchan
    have hlate : PipelineRuns P { p with main := .deadline idx offset () } := by
      apply hmissed.step (a := .main)
      simp only [PipelineState.step, PipelineState.mainStep, hchan]
    have hover : PipelineRuns P { p with main := .leave (.noFreeSlot ()) } :=
      hlate.step (a := .clock true) rfl
    refine shows_leave h .noFreeSlot s.errChan ?_
    rw [hnone, Option.map_none, ← hchan]
    exact hover
  | acquireStart | inline | enter | startWait | inlineWait | top | token | join | returned =>
    rw [hmain] at hpc
    simp only [hmain] at hstep
    first
    | cases hpc
    | cases hstep

theorem shows_abort (hruns : PipelineRuns P p) (h : Shows s p) (hstep : s.abort = some s') :
    ∃ p', PipelineRuns P p' ∧ Shows s' p' := by
  unfold GuestSendState.abort at hstep
  split at hstep
  case h_1 idx offset e hmain hfull =>
    cases hstep
    obtain ⟨hmissed, hchan⟩ := shows_giveUp hruns h hmain
    rw [hfull, Option.map_some] at hchan
    refine shows_leave h e none (hmissed.step (a := .main) ?_)
    simp only [PipelineState.step, PipelineState.mainStep, hchan, Option.map_none]
  case h_2 => cases hstep

/-- A goroutine offers the error of its chunk and goes on to its deferred calls. -/
theorem shows_fail (h : Shows s p) {idx slot offset : Nat} {wpc : WorkerPc Unit} {e : SendError}
    {slots : Nat → GuestSlotUse} (hw : p.workers[idx]? = some ⟨slot, idx, offset, wpc⟩)
    (hruns : PipelineRuns P (p.setWorker idx ⟨slot, idx, offset, wpc⟩ (.failed e.inPhase))) :
    ∃ p', PipelineRuns P p' ∧ Shows { s.setChunk idx (.sent slot) with
      errChan := some (s.errChan.getD e), slots := slots } p' := by
  obtain ⟨hlt, -⟩ := List.getElem?_eq_some_iff.mp hw
  have hoffered : PipelineRuns P { p.setWorker idx ⟨slot, idx, offset, wpc⟩ .release with
      errChan := offer p.errChan e.inPhase } := by
    apply hruns.step (a := .worker idx)
    simp only [PipelineState.step, PipelineState.workerStep, PipelineState.setWorker,
      List.getElem?_set_self hlt, List.set_set]
  refine ⟨_, hoffered, h.move hw (.sent slot offset) h.sem h.wg ?_⟩
  intro hmain
  rw [h.errChan hmain]
  exact inPhase_offer s.errChan e

theorem inPhase_rejection (reply : MsgType) (idx : Nat) :
    (Reply.answered reply : Reply Unit).error idx =
      (GuestSendState.rejection reply (.chunkRejected idx)).map SendError.inPhase := by
  simp only [Reply.error, GuestSendState.rejection]
  split
  · rfl
  · rfl

theorem shows_chunk (hruns : PipelineRuns P p) (h : Shows s p) {idx : Nat}
    (hstep : s.chunkStep P.toGuestSend idx = some s') : ∃ p', PipelineRuns P p' ∧ Shows s' p' := by
  have hgoes := GuestSendState.chunkGoes_of_step hstep
  have hsame := h.chunks idx
  generalize s.chunks idx = pc at hgoes hsame
  generalize hw : p.workers[idx]? = w at hsame
  cases hgoes with
  | publish slot offset msg hmsg =>
    cases hsame
    refine ⟨_, hruns.step (a := .worker idx) ?_,
      h.move hw (.waiting slot offset) h.sem h.wg h.errChan⟩
    simp only [PipelineState.step, PipelineState.workerStep, hw, hmsg]
    rfl
  | tooLong slot offset hmsg =>
    cases hsame
    refine shows_fail h hw (hruns.step (a := .worker idx) ?_)
    simp only [PipelineState.step, PipelineState.workerStep, hw, hmsg]
    rfl
  | rejected slot reply e hans he =>
    cases hsame with
    | waiting _ offset =>
      refine shows_fail h hw (hruns.step (a := .reply idx (.answered reply)) ?_)
      simp only [PipelineState.step, PipelineState.reply, hw, inPhase_rejection, he,
        Option.map_some]
  | accepted slot reply hans he =>
    cases hsame with
    | waiting _ offset =>
      refine ⟨_, hruns.step (a := .reply idx (.answered reply)) ?_,
        h.move hw (.sent slot offset) h.sem h.wg h.errChan⟩
      simp only [PipelineState.step, PipelineState.reply, hw, inPhase_rejection, he,
        Option.map_none]
      rfl
  | release slot =>
    cases hsame with
    | sent _ offset =>
      refine ⟨_, hruns.step (a := .worker idx) ?_,
        h.move hw (.released slot offset) h.sem h.wg h.errChan⟩
      simp only [PipelineState.step, PipelineState.workerStep, hw]
      rfl
  | giveBack =>
    cases hsame with
    | released slot offset =>
      refine ⟨_, hruns.step (a := .worker idx) ?_,
        h.move hw (.tokenBack slot offset) (congrArg (· - 1) h.sem) h.wg h.errChan⟩
      simp only [PipelineState.step, PipelineState.workerStep, hw,
        if_pos (hruns.sem_pos hw rfl)]
      rfl
  | done =>
    cases hsame with
    | tokenBack slot offset =>
      refine ⟨_, hruns.step (a := .worker idx) ?_,
        h.move hw (.finished slot offset) h.sem (congrArg (· - 1) h.wg) h.errChan⟩
      simp only [PipelineState.step, PipelineState.workerStep, hw]
      rfl

/-- What the host and its other callers leave alone. -/
structure GuestSendState.SameCall (s s' : GuestSendState) : Prop where
  main : s'.main = s.main
  sem : s'.sem = s.sem
  wg : s'.wg = s.wg
  errChan : s'.errChan = s.errChan
  chunks : s'.chunks = s.chunks

theorem sameCall_of_work {Q : GuestSend} {slot : Nat} {env : Cpp.Surroundings}
    (hstep : s.work Q slot env = some s') : s.SameCall s' := by
  simp only [GuestSendState.work] at hstep
  split at hstep
  · split at hstep
    · cases hstep
      exact ⟨rfl, rfl, rfl, rfl, rfl⟩
    · cases hstep
      exact ⟨rfl, rfl, rfl, rfl, rfl⟩
  · cases hstep

theorem sameCall_of_other {Q : GuestSend} {event : Cpp.Event}
    (hstep : s.other Q event = some s') : s.SameCall s' := by
  simp only [GuestSendState.other] at hstep
  split at hstep
  · cases hstep
  · cases hstep
    exact ⟨rfl, rfl, rfl, rfl, rfl⟩

theorem Shows.same (h : Shows s p) (hsame : s.SameCall s') : Shows s' p := by
  obtain ⟨hmain, hsem, hwg, herr, hchunks⟩ := hsame
  constructor
  · rw [hmain]
    exact h.main
  · rw [hsem]
    exact h.sem
  · rw [hwg]
    exact h.wg
  · rw [hmain, herr]
    exact h.errChan
  · rw [hchunks]
    exact h.chunks

/-- The call has launched no goroutine and used neither semaphore nor channel. -/
structure GuestSendState.Unstarted (s : GuestSendState) : Prop where
  sem : s.sem = 0
  wg : s.wg = 0
  errChan : s.errChan = none
  chunks : ∀ idx, s.chunks idx = .unborn

theorem GuestSendState.Unstarted.shows (h : s.Unstarted) (hmain : s.main = .top 0 0) :
    Shows s .start where
  main := by
    rw [hmain]
    rfl
  sem := h.sem.symm
  wg := h.wg.symm
  errChan _ := by
    rw [h.errChan]
    rfl
  chunks idx := by
    rw [h.chunks idx]
    exact .unborn

/-- The call has not come to `sendChunksPipelined`, or returned without it. -/
def MainPc.outside : MainPc → Bool
  | .enter | .acquireStart | .startWait _ | .inline _ _ | .inlineWait _ _ _ | .returned _ => true
  | .top _ _ | .token _ _ | .acquire _ _ | .join _ => false

theorem GuestSendState.Unstarted.step {Q : GuestSend} (h : s.Unstarted)
    (hmain : s.main.outside = true) {a : GuestSendAction} (hstep : s.step Q a = some s') :
    s'.Unstarted ∧ (s'.main.outside = true ∨ s'.main = .top 0 0) := by
  have hsame : s.SameCall s' → s'.Unstarted ∧ (s'.main.outside = true ∨ s'.main = .top 0 0) := by
    rintro ⟨hpc, hsem, hwg, herr, hchunks⟩
    rw [hpc]
    exact ⟨⟨hsem.trans h.sem, hwg.trans h.wg, herr.trans h.errChan,
      fun idx => (congrFun hchunks idx).trans (h.chunks idx)⟩, .inl hmain⟩
  obtain ⟨hsem, hwg, herr, hchunks⟩ := h
  have hgivesUp : MainGivesUp Q s s.main s' →
      s'.Unstarted ∧ (s'.main.outside = true ∨ s'.main = .top 0 0) := by
    intro hgoes
    generalize s.main = pc at hgoes hmain
    cases hgoes with
    | leave => cases hmain
    | start | inline => exact ⟨⟨hsem, hwg, herr, hchunks⟩, .inl rfl⟩
  cases a with
  | main =>
    have hgoes := mainGoes_of_step hstep
    generalize s.main = pc at hgoes hmain
    cases hgoes with
    | stop | next | last | token | join => cases hmain
    | startPipelined => exact ⟨⟨hsem, hwg, herr, hchunks⟩, .inr rfl⟩
    | tooLarge | enter | startFailed | startOnly | startInline | inlineEnd | inlineFailed
    | inlineNext => exact ⟨⟨hsem, hwg, herr, hchunks⟩, .inl rfl⟩
  | acquire slot =>
    obtain ⟨-, htakes⟩ := mainTakes_of_acquire hstep
    generalize s.main = pc at htakes hmain
    cases htakes with
    | launch => cases hmain
    | noStreamHeader | noChunkHeader | start | inline | inlineTooLong =>
      exact ⟨⟨hsem, hwg, herr, hchunks⟩, .inl rfl⟩
  | acquireTimeout => exact hgivesUp (givesUp_of_timeout hstep)
  | abort => exact hgivesUp (givesUp_of_abort Q hstep)
  | chunk idx =>
    have hgoes := chunkGoes_of_step hstep
    rw [hchunks idx] at hgoes
    cases hgoes
  | work slot env => exact hsame (sameCall_of_work hstep)
  | other event => exact hsame (sameCall_of_other hstep)

theorem shows_step (hsize : P.data.length ≤ MaxStreamSize) (hruns : PipelineRuns P p)
    (h : Shows s p) {a : GuestSendAction} (hguard : a = .acquireTimeout → s.errChan = none)
    (hstep : s.step P.toGuestSend a = some s') : ∃ p', PipelineRuns P p' ∧ Shows s' p' := by
  cases a with
  | main => exact shows_main hruns h hstep
  | acquire slot => exact shows_acquire hsize hruns h hstep
  | acquireTimeout => exact shows_acquireTimeout hruns h (hguard rfl) hstep
  | abort => exact shows_abort hruns h hstep
  | chunk idx => exact shows_chunk hruns h hstep
  | work slot env => exact ⟨p, hruns, h.same (sameCall_of_work hstep)⟩
  | other event => exact ⟨p, hruns, h.same (sameCall_of_other hstep)⟩

/-- Whatever a call of `Send` comes to in its surroundings, it is outside the chunk phase
with nothing used, or the open chunk phase comes to it as well. -/
theorem guestSend_refines_pipeline (hsize : P.data.length ≤ MaxStreamSize)
    {cfg : Cpp.StreamReassemblerConfig} {events : List Cpp.Event}
    (hr : Reachable (GuestSendState.step P.toGuestSend)
      (fun s a => a = .acquireTimeout → s.errChan = none) (.start cfg events) s) :
    (s.Unstarted ∧ s.main.outside = true) ∨ ∃ p, PipelineRuns P p ∧ Shows s p := by
  refine hr.invariant (fun s => (s.Unstarted ∧ s.main.outside = true) ∨
    ∃ p, PipelineRuns P p ∧ Shows s p) (.inl ⟨⟨rfl, rfl, rfl, fun _ => rfl⟩, rfl⟩) ?_
  intro s a s' hs hguard hstep
  rcases hs with ⟨hunstarted, hmain⟩ | ⟨p, hruns, h⟩
  · obtain ⟨hnext, hpc⟩ := hunstarted.step hmain hstep
    rcases hpc with hout | htop
    · exact .inl ⟨hnext, hout⟩
    · exact .inr ⟨.start, ⟨.new, .start⟩, hnext.shows htop⟩
  · exact .inr (shows_step hsize hruns h hguard hstep)

end Steps

end ShmIpc.Stream.Go
