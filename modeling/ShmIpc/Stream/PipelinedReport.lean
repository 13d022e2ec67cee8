import ShmIpc.Stream.PipelinedSend

/-!
What `sendChunksPipelined` reports, and what it leaves behind. At every point the semaphore
and the wait group count the goroutines, and the errors that have occurred are in a
goroutine's hands, in `errChan`, or in the hands of the caller. When the wait group is at
zero no goroutine is left to bring another error.
-/

namespace ShmIpc.Stream.Go
open Library

namespace ChunkPhase

variable (P : ChunkPhase)

theorem maxPayload_pos : 0 < P.maxPayload := by
  have hroom := P.room
  rw [GuestSend.maxPayload]
  omega

theorem lt_totalChunks (i : Nat) : i < P.totalChunks ↔ i * P.maxPayload < P.data.length := by
  have hcount := lt_blockCount_iff P.data.length P.maxPayload i P.maxPayload_pos
  rw [GuestSend.totalChunks]
  split
  · exact hcount
  · omega

theorem offsetOf_lt_iff (i : Nat) : P.offsetOf i < P.data.length ↔ i < P.totalChunks := by
  rw [P.lt_totalChunks i, GuestSend.offsetOf]
  omega

theorem offsetOf_of_lt {i : Nat} (hi : i < P.totalChunks) : P.offsetOf i = i * P.maxPayload := by
  rw [P.lt_totalChunks i] at hi
  rw [GuestSend.offsetOf]
  omega

theorem blockEnd_offsetOf {i : Nat} (hi : i < P.totalChunks) :
    P.blockEnd (P.offsetOf i) = P.offsetOf (i + 1) := by
  rw [P.offsetOf_of_lt hi, GuestSend.blockEnd, GuestSend.offsetOf, Nat.add_mul, Nat.one_mul]
  rw [P.lt_totalChunks i] at hi
  split
  · omega
  · omega

theorem sendChunk_isSome (idx offset : Nat) : ∃ msg, P.sendChunk idx offset = some msg := by
  have hlen : (P.payload offset).length ≤ P.maxPayload := by
    rw [GuestSend.payload, List.length_take, GuestSend.blockEnd]
    split
    · omega
    · omega
  have hfits : ¬ P.bufLen < chunkHeaderSize + (P.payload offset).length := by
    have hroom := P.room
    rw [GuestSend.maxPayload] at hlen
    omega
  simp only [GuestSend.sendChunk, if_neg hfits]
  exact ⟨_, rfl⟩

end ChunkPhase

section Region

variable {τ : Type}

/-- Some goroutine has an error that it has not offered yet. -/
def Pending (workers : List (Worker τ)) : Prop := ∃ w ∈ workers, w.pc.hasError = true

/-- The state between the first token and the last. The caller has put `tokens` into the
semaphore and `group` into the wait group on its own, has the handles of the slots `held`,
and `read` is what it will report; chunks from `bound` on have come to nothing yet. -/
structure Region (P : ChunkPhase) (s : PipelineState τ) (log : PipelineLog τ)
    (tokens group bound : Nat) (held : List Nat) (read : Option (ChunkError τ)) : Prop where
  crew : Crew P s.workers log
  sem : Counts (fun w => w.pc.hasToken) s.workers tokens s.sem
  cap : s.sem ≤ P.inFlight
  wg : Counts (fun w => w.pc.isLive) s.workers group s.wg
  reported : Reported (log.errors.map Prod.snd) (Pending s.workers) s.errChan read
  errors_lt : ∀ x ∈ log.errors, x.1 < bound
  launched : s.workers.length ≤ bound
  bound_le : bound ≤ P.totalChunks
  acquired : log.acquired = s.workers.map Worker.slot ++ held

variable {P : ChunkPhase} {s s' : PipelineState τ} {log log' : PipelineLog τ}
  {tokens group bound n : Nat} {held : List Nat} {read : Option (ChunkError τ)} {w : Worker τ}
  {pc : WorkerPc τ}

theorem map_slot_set {workers : List (Worker τ)} (hw : workers[n]? = some w) :
    (workers.set n { w with pc := pc }).map Worker.slot = workers.map Worker.slot := by
  have hslot : (workers.map Worker.slot)[n]? = some w.slot := by rw [List.getElem?_map, hw]; rfl
  obtain ⟨hlt, hget⟩ := List.getElem?_eq_some_iff.mp hslot
  rw [List.map_set, ← hget]
  exact List.set_getElem_self hlt

theorem Pending.set {workers : List (Worker τ)} (h : Pending workers) (hw : workers[n]? = some w)
    (hpc : w.pc.hasError = false) : Pending (workers.set n { w with pc := pc }) := by
  obtain ⟨v, hv, herr⟩ := h
  refine ⟨v, ?_, herr⟩
  obtain ⟨m, hm⟩ := List.mem_iff_getElem?.mp hv
  have hne : n ≠ m := by
    intro heq
    rw [← heq, hw] at hm
    cases hm
    rw [hpc] at herr
    cases herr
  refine List.mem_iff_getElem?.mpr ⟨m, ?_⟩
  rw [List.getElem?_set_ne hne]
  exact hm

theorem pending_set_self {workers : List (Worker τ)} (hw : workers[n]? = some w)
    (hpc : pc.hasError = true) : Pending (workers.set n { w with pc := pc }) := by
  obtain ⟨hlt, -⟩ := List.getElem?_eq_some_iff.mp hw
  exact ⟨_, List.mem_set hlt _, hpc⟩

theorem Region.move (h : Region P s log tokens group bound held read)
    (hw : s.workers[n]? = some w) (hlog : OnlyAt n log log')
    (hinv : WorkerInv P log' n { w with pc := pc }) (hreleased : log'.released.Nodup)
    (hpublished : (log'.published.map Prod.fst).Nodup) {sem wg : Nat}
    {errChan : Option (ChunkError τ)}
    (hsem : Counts (fun w => w.pc.hasToken) (s.workers.set n { w with pc := pc }) tokens sem)
    (hcap : sem ≤ P.inFlight)
    (hwg : Counts (fun w => w.pc.isLive) (s.workers.set n { w with pc := pc }) group wg)
    (hreported : Reported (log'.errors.map Prod.snd)
      (Pending (s.workers.set n { w with pc := pc })) errChan read) :
    Region P { s.setWorker n w pc with sem := sem, wg := wg, errChan := errChan } log'
      tokens group bound held read := by
  obtain ⟨hlt, -⟩ := List.getElem?_eq_some_iff.mp hw
  refine ⟨h.crew.move hw hlog hinv hreleased hpublished, hsem, hcap, hwg, hreported, ?_, ?_,
    h.bound_le, ?_⟩
  · rintro ⟨m, e⟩ hm
    by_cases heq : m = n
    · rw [heq]
      exact Nat.lt_of_lt_of_le hlt h.launched
    · exact h.errors_lt (m, e) ((hlog.errors m e heq).mp hm)
  · simp only [PipelineState.setWorker, List.length_set]
    exact h.launched
  · simp only [PipelineState.setWorker, hlog.acquired, h.acquired, map_slot_set hw]

theorem Region.moveFree (h : Region P s log tokens group bound held read)
    (hw : s.workers[n]? = some w) (hlog : OnlyAt n log log')
    (hinv : WorkerInv P log' n { w with pc := pc }) (hreleased : log'.released.Nodup)
    (hpublished : (log'.published.map Prod.fst).Nodup)
    (htoken : pc.hasToken = w.pc.hasToken) (hlive : pc.isLive = w.pc.isLive)
    {errChan : Option (ChunkError τ)} (hreported : Reported (log'.errors.map Prod.snd)
      (Pending (s.workers.set n { w with pc := pc })) errChan read) :
    Region P { s.setWorker n w pc with errChan := errChan } log' tokens group bound held read :=
  h.move hw hlog hinv hreleased hpublished (h.sem.keep hw htoken) h.cap (h.wg.keep hw hlive)
    hreported

theorem Region.quiet (h : Region P s log tokens group bound held read)
    (hw : s.workers[n]? = some w) (hpc : w.pc.hasError = false)
    (herrors : log'.errors = log.errors) (pc : WorkerPc τ) :
    Reported (log'.errors.map Prod.snd) (Pending (s.workers.set n { w with pc := pc }))
      s.errChan read := by
  rw [herrors]
  exact h.reported.mono fun hpending => hpending.set hw hpc

theorem Region.raise (h : Region P s log tokens group bound held read)
    (hw : s.workers[n]? = some w) (e : ChunkError τ) :
    Reported ((log.fail n e).errors.map Prod.snd)
      (Pending (s.workers.set n { w with pc := .failed e })) s.errChan read := by
  rw [PipelineLog.fail, List.map_append]
  exact h.reported.raise e (pending_set_self hw rfl)

theorem WorkerInv.notMem_published (h : WorkerInv P log n w) (hpc : w.pc = .send) :
    n ∉ log.published.map Prod.fst := by
  intro hmem
  obtain ⟨x, hx, rfl⟩ := List.mem_map.mp hmem
  exact ((h.published x.2).mp hx).1 hpc

theorem WorkerInv.next (h : WorkerInv P log n w) (hbefore : w.pc ≠ .send) (pc : WorkerPc τ)
    (hafter : pc ≠ .send) (hpublished : log'.published = log.published)
    (hreleased : n ∈ log'.released ↔ pc.hasReleased = true) (houtcome : Outcome log' n pc) :
    WorkerInv P log' n { w with pc := pc } where
  idx := h.idx
  offset := h.offset
  released := hreleased
  published msg := by
    rw [hpublished, h.published msg]
    exact and_congr_left' (iff_of_true hbefore hafter)
  outcome := houtcome

theorem WorkerInv.publish (h : WorkerInv P log n w) (hpc : w.pc = .send) {msg : List UInt8}
    (hmsg : P.sendChunk w.idx w.offset = some msg) :
    WorkerInv P (log.publish n msg) n { w with pc := .waiting } where
  idx := h.idx
  offset := h.offset
  released := by
    have hreleased := h.released
    rw [hpc] at hreleased
    exact hreleased
  published msg' := by
    have hnone : (n, msg') ∉ log.published := fun hmem => ((h.published msg').mp hmem).1 hpc
    rw [PipelineLog.publish, List.mem_append, List.mem_singleton, or_iff_right hnone, hmsg]
    constructor
    · intro heq
      refine ⟨(by intro hsame; cases hsame), ?_⟩
      rw [(Prod.mk.inj heq).2]
    · rintro ⟨-, heq⟩
      rw [Option.some.inj heq]
  outcome := by
    have houtcome := h.outcome
    rw [hpc] at houtcome
    exact houtcome

theorem Region.workerStep (h : Region P s log tokens group bound held read)
    (hs' : s.workerStep P n = some s') :
    Region P s' (recordPipeline P s (.worker n) s' log) tokens group bound held read := by
  simp only [PipelineState.workerStep] at hs'
  split at hs'
  · cases hs'
  case h_2 w hw =>
    have hinv := h.crew.each n w hw
    have hreleased := hinv.released
    have houtcome := hinv.outcome
    simp only [recordPipeline, hw, recordWorker]
    cases hpc : w.pc with
    | send =>
      obtain ⟨msg, hmsg⟩ := P.sendChunk_isSome w.idx w.offset
      simp only [hpc, hmsg, Option.some.injEq] at hs' ⊢
      subst hs'
      have hpublished : ((log.publish n msg).published.map Prod.fst).Nodup := by
        rw [PipelineLog.publish, List.map_append, List.map_singleton, ← List.concat_eq_append]
        exact h.crew.published.concat (hinv.notMem_published hpc)
      exact h.moveFree hw (onlyAt_publish n msg log) (hinv.publish hpc hmsg) h.crew.released
        hpublished (by rw [hpc]; rfl) (by rw [hpc]; rfl) (h.quiet hw (by rw [hpc]; rfl) rfl _)
    | waiting => simp only [hpc, reduceCtorEq] at hs'
    | failed e =>
      simp only [hpc, Option.some.injEq] at hs' ⊢
      subst hs'
      rw [hpc] at hreleased houtcome
      have hraised : e ∈ log.errors.map Prod.snd := List.mem_map.mpr ⟨_, houtcome.2, rfl⟩
      exact h.moveFree hw (onlyAt_refl n log)
        (hinv.next (by rw [hpc]; intro hc; cases hc) .release (by intro hc; cases hc) rfl
          hreleased (Or.inr ⟨houtcome.1, e, houtcome.2⟩)) h.crew.released h.crew.published
        (by rw [hpc]; rfl) (by rw [hpc]; rfl) (h.reported.offer hraised _)
    | release =>
      simp only [hpc, Option.some.injEq] at hs' ⊢
      subst hs'
      rw [hpc] at hreleased houtcome
      have hnew : n ∉ log.released := by
        rw [hreleased]
        exact Bool.false_ne_true
      have honce : (log.release n).released.Nodup := by
        rw [PipelineLog.release, ← List.concat_eq_append]
        exact h.crew.released.concat hnew
      exact h.moveFree hw (onlyAt_release n log)
        (hinv.next (by rw [hpc]; intro hc; cases hc) .token (by intro hc; cases hc) rfl
          (iff_of_true (List.mem_append_right _ (List.mem_singleton_self n)) rfl) houtcome)
        honce h.crew.published
        (by rw [hpc]; rfl) (by rw [hpc]; rfl) (h.quiet hw (by rw [hpc]; rfl) rfl _)
    | token =>
      simp only [hpc] at hs' ⊢
      split at hs'
      · cases hs'
        rw [hpc] at hreleased houtcome
        exact h.move hw (onlyAt_refl n log)
          (hinv.next (by rw [hpc]; intro hc; cases hc) .done (by intro hc; cases hc) rfl hreleased
            houtcome) h.crew.released h.crew.published
          (h.sem.leave hw (by simp only [hpc]; rfl) rfl) (Nat.le_trans (Nat.sub_le _ _) h.cap)
          (h.wg.keep hw (by simp only [hpc]; rfl)) (h.quiet hw (by rw [hpc]; rfl) rfl _)
      · cases hs'
    | done =>
      simp only [hpc, Option.some.injEq] at hs' ⊢
      subst hs'
      rw [hpc] at hreleased houtcome
      exact h.move hw (onlyAt_refl n log)
        (hinv.next (by rw [hpc]; intro hc; cases hc) .gone (by intro hc; cases hc) rfl hreleased
          houtcome) h.crew.released h.crew.published
        (h.sem.keep hw (by simp only [hpc]; rfl)) h.cap
        (h.wg.leave hw (by simp only [hpc]; rfl) rfl) (h.quiet hw (by rw [hpc]; rfl) rfl _)
    | gone => simp only [hpc, reduceCtorEq] at hs'

theorem Region.reply (h : Region P s log tokens group bound held read) {r : Reply τ}
    (hs' : s.reply n r = some s') :
    Region P s' (recordPipeline P s (.reply n r) s' log) tokens group bound held read := by
  simp only [PipelineState.reply] at hs'
  split at hs'
  · cases hs'
  case h_2 w hw =>
    have hinv := h.crew.each n w hw
    have hreleased := hinv.released
    have houtcome := hinv.outcome
    split at hs'
    case h_1 hpc =>
      rw [hpc] at hreleased houtcome
      have hsent : w.pc ≠ .send := by
        rw [hpc]
        intro hsame
        cases hsame
      simp only [recordPipeline, hw, recordReply]
      split at hs'
      case h_1 e herror =>
        cases hs'
        exact h.moveFree hw (onlyAt_fail n e log)
          (hinv.next hsent (.failed e) (by intro hc; cases hc) rfl hreleased
            ⟨houtcome.1, List.mem_append_right _ (List.mem_singleton_self _)⟩)
          h.crew.released h.crew.published (by rw [hpc]; rfl) (by rw [hpc]; rfl) (h.raise hw e)
      case h_2 herror =>
        cases hs'
        exact h.moveFree hw (onlyAt_acknowledge n log)
          (hinv.next hsent .release (by intro hc; cases hc) rfl hreleased
            (Or.inl ⟨List.mem_append_right _ (List.mem_singleton_self _), houtcome.2⟩))
          h.crew.released h.crew.published (by rw [hpc]; rfl) (by rw [hpc]; rfl)
          (h.quiet hw (by rw [hpc]; rfl) rfl _)
    · cases hs'

end Region

/-- What holds where `sendChunksPipelined` is. -/
def PipelineInv (P : ChunkPhase) {τ : Type} (s : PipelineState τ) (log : PipelineLog τ) :
    PipelinePc τ → Prop
  | .top idx offset =>
    Region P s log 0 0 s.workers.length [] none ∧
      idx = s.workers.length % 2 ^ 32 ∧ offset = P.offsetOf s.workers.length
  | .token idx offset =>
    Region P s log 0 0 s.workers.length [] none ∧ s.workers.length < P.totalChunks ∧
      idx = s.workers.length % 2 ^ 32 ∧ offset = P.offsetOf s.workers.length
  | .add idx offset =>
    Region P s log 1 0 s.workers.length [] none ∧ s.workers.length < P.totalChunks ∧
      idx = s.workers.length % 2 ^ 32 ∧ offset = P.offsetOf s.workers.length
  | .acquire idx offset | .missed idx offset _ | .deadline idx offset _ =>
    Region P s log 1 1 s.workers.length [] none ∧ s.workers.length < P.totalChunks ∧
      idx = s.workers.length % 2 ^ 32 ∧ offset = P.offsetOf s.workers.length
  | .launch slot idx offset =>
    Region P s log 1 1 s.workers.length [slot] none ∧ s.workers.length < P.totalChunks ∧
      idx = s.workers.length % 2 ^ 32 ∧ offset = P.offsetOf s.workers.length
  | .leave e => ∃ bound, Region P s log 1 1 bound [] (some e)
  | .done e => ∃ bound, Region P s log 0 1 bound [] (some e)
  | .join (some e) => ∃ bound, Region P s log 0 0 bound [] (some e)
  | .join none =>
    Region P s log 0 0 s.workers.length [] none ∧ s.workers.length = P.totalChunks
  | .collect =>
    Region P s log 0 0 s.workers.length [] none ∧ s.workers.length = P.totalChunks ∧
      ∀ w ∈ s.workers, w.pc.isLive = false
  | .returned error =>
    (∃ bound, Region P s log 0 0 bound [] error) ∧ (∀ w ∈ s.workers, w.pc.isLive = false) ∧
      (error = none → s.workers.length = P.totalChunks ∧ log.errors = [])

section Steps

variable {τ : Type} {P : ChunkPhase} {s s' : PipelineState τ} {log : PipelineLog τ}

theorem pipelineInv_start (P : ChunkPhase) :
    PipelineInv P (PipelineState.start : PipelineState τ) .new (.top 0 0) := by
  refine ⟨⟨⟨?_, List.nodup_nil, ?_, List.nodup_nil, ?_, ?_⟩, counts_nil _, Nat.zero_le _,
    counts_nil _, reported_nil _, ?_, Nat.le_refl _, Nat.zero_le _, rfl⟩, rfl, ?_⟩
  · intro n w hw
    cases hw
  · intro n hn
    cases hn
  · intro x hx
    cases hx
  · intro n hn
    cases hn
  · intro x hx
    cases hx
  · simp only [PipelineState.start, GuestSend.offsetOf, List.length_nil, Nat.zero_mul, Nat.zero_min]

/-- A goroutine moves, and the caller does not. -/
structure Moves (s s' : PipelineState τ) : Prop where
  main : s'.main = s.main
  length : s'.workers.length = s.workers.length
  live : ∃ w ∈ s.workers, w.pc.isLive = true

theorem moves_setWorker {n : Nat} {w : Worker τ} (hw : s.workers[n]? = some w)
    (hlive : w.pc.isLive = true) (pc : WorkerPc τ) (sem wg : Nat)
    (errChan : Option (ChunkError τ)) :
    Moves s { s.setWorker n w pc with sem := sem, wg := wg, errChan := errChan } :=
  ⟨rfl, List.length_set, w, List.mem_iff_getElem?.mpr ⟨n, hw⟩, hlive⟩

theorem moves_workerStep {n : Nat} (hs' : s.workerStep P n = some s') : Moves s s' := by
  simp only [PipelineState.workerStep] at hs'
  split at hs'
  · cases hs'
  case h_2 w hw =>
    cases hpc : w.pc with
    | waiting | gone => simp only [hpc, reduceCtorEq] at hs'
    | send =>
      simp only [hpc] at hs'
      split at hs' <;> cases hs' <;> exact moves_setWorker hw (by rw [hpc]; rfl) _ _ _ _
    | token =>
      simp only [hpc] at hs'
      split at hs'
      · cases hs'
        exact moves_setWorker hw (by rw [hpc]; rfl) _ _ _ _
      · cases hs'
    | failed | release | done =>
      simp only [hpc, Option.some.injEq] at hs'
      subst hs'
      exact moves_setWorker hw (by rw [hpc]; rfl) _ _ _ _

theorem moves_reply {n : Nat} {r : Reply τ} (hs' : s.reply n r = some s') : Moves s s' := by
  simp only [PipelineState.reply] at hs'
  split at hs'
  · cases hs'
  case h_2 w hw =>
    split at hs'
    case h_1 hpc =>
      split at hs' <;> cases hs' <;> exact moves_setWorker hw (by rw [hpc]; rfl) _ _ _ _
    · cases hs'

theorem PipelineInv.of_region {log' : PipelineLog τ} (h : PipelineInv P s log s.main)
    (hmoves : Moves s s') (hregion : ∀ tokens group bound held read,
      Region P s log tokens group bound held read →
        Region P s' log' tokens group bound held read) : PipelineInv P s' log' s'.main := by
  obtain ⟨hmain, hlen, hlive⟩ := hmoves
  have hnone : (∀ w ∈ s.workers, w.pc.isLive = false) → False := by
    intro hall
    obtain ⟨w, hw, hw'⟩ := hlive
    rw [hall w hw] at hw'
    cases hw'
  rw [hmain]
  cases hpc : s.main with
  | top | token | add | acquire | missed | deadline | launch =>
    rw [hpc] at h
    simp only [PipelineInv, hlen] at h ⊢
    exact ⟨hregion _ _ _ _ _ h.1, h.2⟩
  | leave | done =>
    rw [hpc] at h
    obtain ⟨bound, hbound⟩ := h
    exact ⟨bound, hregion _ _ _ _ _ hbound⟩
  | join error =>
    rw [hpc] at h
    cases error with
    | none =>
      simp only [PipelineInv, hlen] at h ⊢
      exact ⟨hregion _ _ _ _ _ h.1, h.2⟩
    | some e =>
      obtain ⟨bound, hbound⟩ := h
      exact ⟨bound, hregion _ _ _ _ _ hbound⟩
  | collect =>
    rw [hpc] at h
    exact (hnone h.2.2).elim
  | returned error =>
    rw [hpc] at h
    exact (hnone h.2.1).elim

theorem Region.advance {tokens tokens' group group' bound sem wg : Nat} {held : List Nat}
    {read : Option (ChunkError τ)} (h : Region P s log tokens group bound held read)
    (hsem : Counts (fun w => w.pc.hasToken) s.workers tokens' sem) (hcap : sem ≤ P.inFlight)
    (hwg : Counts (fun w => w.pc.isLive) s.workers group' wg) (pc : PipelinePc τ) :
    Region P { s with sem := sem, wg := wg, main := pc } log tokens' group' bound held read :=
  ⟨h.crew, hsem, hcap, hwg, h.reported, h.errors_lt, h.launched, h.bound_le, h.acquired⟩

theorem Region.withMain {tokens group bound : Nat} {held : List Nat}
    {read : Option (ChunkError τ)} (h : Region P s log tokens group bound held read)
    (pc : PipelinePc τ) : Region P { s with main := pc } log tokens group bound held read :=
  h.advance h.sem h.cap h.wg pc

theorem Region.take {tokens group bound : Nat} {held : List Nat} {e : ChunkError τ}
    (h : Region P s log tokens group bound held none) (herr : s.errChan = some e)
    (pc : PipelinePc τ) :
    Region P { s with errChan := none, main := pc } log tokens group bound held (some e) := by
  have hreported := h.reported
  rw [herr] at hreported
  exact ⟨h.crew, h.sem, h.cap, h.wg, hreported.take, h.errors_lt, h.launched, h.bound_le,
    h.acquired⟩

/-- The goroutine of the next chunk is launched, with the token, the place in the wait group
and the handle that the caller got for it. -/
theorem Region.fork {slot idx offset : Nat}
    (h : Region P s log 1 1 s.workers.length [slot] none)
    (hlt : s.workers.length < P.totalChunks) (hidx : idx = s.workers.length % 2 ^ 32)
    (hoffset : offset = P.offsetOf s.workers.length) (pc : PipelinePc τ) :
    Region P { s with workers := s.workers ++ [⟨slot, idx, offset, .send⟩], main := pc } log 0 0
      (s.workers.length + 1) [] none := by
  have hlen : (s.workers ++ [(⟨slot, idx, offset, .send⟩ : Worker τ)]).length =
      s.workers.length + 1 := List.length_append
  refine ⟨h.crew.fork ⟨hidx, ?_, ?_, ?_, ?_, ?_⟩, h.sem.fork rfl, h.cap, h.wg.fork rfl,
    h.reported.mono ?_, fun x hx => Nat.lt_succ_of_lt (h.errors_lt x hx), Nat.le_of_eq hlen, hlt,
    ?_⟩
  · rw [hoffset, P.offsetOf_of_lt hlt]
  · exact iff_of_false (fun hmem => Nat.lt_irrefl _ (h.crew.released_lt _ hmem)) Bool.false_ne_true
  · intro msg
    exact iff_of_false (fun hmem => Nat.lt_irrefl _ (h.crew.published_lt _ hmem))
      (fun hsent => hsent.1 rfl)
  · exact fun hmem => Nat.lt_irrefl _ (h.crew.acknowledged_lt _ hmem)
  · exact fun e hmem => Nat.lt_irrefl _ (h.errors_lt _ hmem)
  · rintro ⟨w, hw, herr⟩
    exact ⟨w, List.mem_append_left _ hw, herr⟩
  · rw [h.acquired, List.map_append, List.append_nil]
    rfl

theorem not_pending_of_gone {workers : List (Worker τ)}
    (h : ∀ w ∈ workers, w.pc.isLive = false) : ¬ Pending workers := by
  rintro ⟨w, hw, herr⟩
  have hlive := h w hw
  cases hpc : w.pc with
  | failed e =>
    rw [hpc] at hlive
    cases hlive
  | send | waiting | release | token | done | gone =>
    rw [hpc] at herr
    cases herr

theorem pipelineInv_main (h : PipelineInv P s log s.main) (hs' : s.mainStep P = some s') :
    PipelineInv P s' log s'.main := by
  have hmove := mainMove_of_step hs'
  generalize s.main = pc at h hmove
  cases hmove with
  | next idx offset hlt hnone =>
    obtain ⟨hregion, hidx, hoffset⟩ := h
    rw [hoffset, P.offsetOf_lt_iff] at hlt
    exact ⟨hregion.withMain _, hlt, hidx, hoffset⟩
  | stop idx offset e hlt herr =>
    exact ⟨s.workers.length, h.1.take herr _⟩
  | last idx offset hge =>
    obtain ⟨hregion, hidx, hoffset⟩ := h
    rw [hoffset, P.offsetOf_lt_iff] at hge
    exact ⟨hregion.withMain _, Nat.le_antisymm hregion.bound_le (Nat.le_of_not_lt hge)⟩
  | token idx offset hfree =>
    exact ⟨h.1.advance h.1.sem.put hfree h.1.wg _, h.2⟩
  | add idx offset =>
    exact ⟨h.1.advance h.1.sem h.1.cap h.1.wg.put _, h.2⟩
  | retry idx offset cause hnone =>
    exact ⟨h.1.withMain _, h.2⟩
  | abort idx offset cause e herr =>
    exact ⟨s.workers.length, h.1.take herr _⟩
  | launch slot idx offset =>
    obtain ⟨hregion, hlt, hidx, hoffset⟩ := h
    have hlen : (s.workers ++ [(⟨slot, idx, offset, .send⟩ : Worker τ)]).length =
        s.workers.length + 1 := List.length_append
    simp only [PipelineInv, hlen]
    refine ⟨hregion.fork hlt hidx hoffset _, ?_, ?_⟩
    · rw [hidx, Nat.mod_add_mod]
    · rw [hoffset]
      exact P.blockEnd_offsetOf hlt
  | leave e hheld =>
    obtain ⟨bound, hregion⟩ := h
    have hcap := Nat.le_trans (Nat.sub_le s.sem 1) hregion.cap
    exact ⟨bound, hregion.advance hregion.sem.take hcap hregion.wg _⟩
  | done e =>
    obtain ⟨bound, hregion⟩ := h
    exact ⟨bound, hregion.advance hregion.sem hregion.cap hregion.wg.take _⟩
  | fail e hzero =>
    obtain ⟨bound, hregion⟩ := h
    have hwg := hregion.wg
    rw [hzero] at hwg
    refine ⟨⟨bound, hregion.withMain _⟩, hwg.none_of_zero, ?_⟩
    intro hsame
    cases hsame
  | join hzero =>
    obtain ⟨hregion, hall⟩ := h
    have hwg := hregion.wg
    rw [hzero] at hwg
    exact ⟨hregion.withMain _, hall, hwg.none_of_zero⟩
  | collect =>
    obtain ⟨hregion, hall, hgone⟩ := h
    cases herr : s.errChan with
    | none =>
      have hnone := hregion.reported
      rw [herr] at hnone
      have hempty := List.map_eq_nil_iff.mp (hnone.eq_nil (not_pending_of_gone hgone))
      exact ⟨⟨s.workers.length, hregion.crew, hregion.sem, hregion.cap, hregion.wg, hnone,
        hregion.errors_lt, hregion.launched, hregion.bound_le, hregion.acquired⟩, hgone,
        fun _ => ⟨hall, hempty⟩⟩
    | some e =>
      refine ⟨⟨s.workers.length, hregion.take herr _⟩, hgone, ?_⟩
      intro hsame
      cases hsame

theorem pipelineInv_acquired (h : PipelineInv P s log s.main) {slot : Nat}
    (hs' : s.acquired slot = some s') :
    PipelineInv P s' { log with acquired := log.acquired ++ [slot] } s'.main := by
  simp only [PipelineState.acquired] at hs'
  split at hs'
  case h_1 idx offset hpc =>
    cases hs'
    rw [hpc] at h
    obtain ⟨hregion, hrest⟩ := h
    have hacquired := hregion.acquired
    rw [List.append_nil] at hacquired
    refine ⟨⟨?_, hregion.sem, hregion.cap, hregion.wg, hregion.reported, hregion.errors_lt,
      hregion.launched, hregion.bound_le, congrArg (· ++ [slot]) hacquired⟩, hrest⟩
    exact ⟨fun n w hw => ⟨(hregion.crew.each n w hw).idx, (hregion.crew.each n w hw).offset,
      (hregion.crew.each n w hw).released, (hregion.crew.each n w hw).published,
      (hregion.crew.each n w hw).outcome.congr Iff.rfl fun _ => Iff.rfl⟩,
      hregion.crew.released, hregion.crew.released_lt, hregion.crew.published,
      hregion.crew.published_lt, hregion.crew.acknowledged_lt⟩
  · cases hs'

theorem pipelineInv_refused (h : PipelineInv P s log s.main) {cause : τ}
    (hs' : s.refused cause = some s') : PipelineInv P s' log s'.main := by
  simp only [PipelineState.refused] at hs'
  split at hs'
  case h_1 idx offset hpc =>
    cases hs'
    rw [hpc] at h
    exact ⟨h.1.withMain _, h.2⟩
  · cases hs'

theorem Region.fail (h : Region P s log 1 1 s.workers.length [] none)
    (hlt : s.workers.length < P.totalChunks) (e : ChunkError τ) (pc : PipelinePc τ) :
    Region P { s with main := pc } (log.fail s.workers.length e) 1 1 (s.workers.length + 1) []
      (some e) := by
  have hcrew : Crew P s.workers (log.fail s.workers.length e) := by
    refine ⟨?_, h.crew.released, h.crew.released_lt, h.crew.published, h.crew.published_lt,
      h.crew.acknowledged_lt⟩
    intro n w hw
    obtain ⟨hn, -⟩ := List.getElem?_eq_some_iff.mp hw
    exact (h.crew.each n w hw).of_onlyAt (Nat.ne_of_lt hn) (onlyAt_fail _ e log)
  have hreported := h.reported.fail e
  refine ⟨hcrew, h.sem, h.cap, h.wg, ?_, ?_, Nat.le_succ _, hlt, h.acquired⟩
  · rw [PipelineLog.fail, List.map_append]
    exact hreported
  · intro x hx
    rw [PipelineLog.fail, List.mem_append, List.mem_singleton] at hx
    cases hx with
    | inl hold => exact Nat.lt_succ_of_lt (h.errors_lt x hold)
    | inr hnew =>
      rw [hnew]
      exact Nat.lt_succ_self _

theorem pipelineInv_clock (h : PipelineInv P s log s.main) {expired : Bool}
    (hs' : s.clock expired = some s') :
    PipelineInv P s' (recordPipeline P s (.clock expired) s' log) s'.main := by
  simp only [PipelineState.clock] at hs'
  simp only [recordPipeline]
  cases hpc : s.main with
  | deadline idx offset cause =>
    rw [hpc] at h
    simp only [hpc] at hs' ⊢
    cases expired with
    | true =>
      cases hs'
      exact ⟨s.workers.length + 1, h.1.fail h.2.1 _ _⟩
    | false =>
      cases hs'
      exact ⟨h.1.withMain _, h.2⟩
  | top | token | add | acquire | missed | launch | leave | done | join | collect | returned =>
    simp only [hpc, reduceCtorEq] at hs'

theorem pipelineInv_step (h : PipelineInv P s log s.main) {a : PipelineAction τ}
    (hs' : s.step P a = some s') : PipelineInv P s' (recordPipeline P s a s' log) s'.main := by
  cases a with
  | main => exact pipelineInv_main h hs'
  | acquired slot => exact pipelineInv_acquired h hs'
  | refused cause => exact pipelineInv_refused h hs'
  | clock expired => exact pipelineInv_clock h hs'
  | worker n => exact h.of_region (moves_workerStep hs') fun _ _ _ _ _ hr => hr.workerStep hs'
  | reply n r => exact h.of_region (moves_reply hs') fun _ _ _ _ _ hr => hr.reply hs'

end Steps

section Results

variable {τ : Type} {P : ChunkPhase} {s : PipelineState τ} {log : PipelineLog τ}

theorem pipelineInv_reachable {guard : PipelineState τ × PipelineLog τ → PipelineAction τ → Prop}
    (hr : Reachable (P.logged τ) guard (.start, .new) (s, log)) : PipelineInv P s log s.main :=
  hr.recorded_invariant (fun s log => PipelineInv P s log s.main) (pipelineInv_start P)
    fun _ _ _ _ h _ hs' => pipelineInv_step h hs'

theorem PipelineInv.region {pc : PipelinePc τ} (h : PipelineInv P s log pc) :
    ∃ tokens group bound held read, Region P s log tokens group bound held read := by
  cases pc with
  | top | token | add | acquire | missed | deadline | launch | collect => exact ⟨_, _, _, _, _, h.1⟩
  | leave | done =>
    obtain ⟨bound, hregion⟩ := h
    exact ⟨_, _, _, _, _, hregion⟩
  | join error =>
    cases error with
    | none => exact ⟨_, _, _, _, _, h.1⟩
    | some e =>
      obtain ⟨bound, hregion⟩ := h
      exact ⟨_, _, _, _, _, hregion⟩
  | returned error =>
    obtain ⟨⟨bound, hregion⟩, -⟩ := h
    exact ⟨_, _, _, _, _, hregion⟩

theorem WorkerPc.eq_gone {pc : WorkerPc τ} (h : pc.isLive = false) : pc = .gone := by
  cases pc with
  | gone => rfl
  | send | waiting | failed | release | token | done => cases h

theorem released_perm {bound : Nat} {read : Option (ChunkError τ)}
    (h : Region P s log 0 0 bound [] read) (hgone : ∀ w ∈ s.workers, w.pc.isLive = false) :
    log.released.Perm (List.range log.acquired.length) := by
  have hlen : log.acquired.length = s.workers.length := by
    rw [h.acquired, List.append_nil, List.length_map]
  rw [List.perm_ext_iff_of_nodup h.crew.released List.nodup_range]
  intro n
  rw [List.mem_range, hlen]
  refine ⟨h.crew.released_lt n, fun hn => ?_⟩
  have hw := List.getElem?_eq_getElem hn
  rw [(h.crew.each n _ hw).released, WorkerPc.eq_gone (hgone _ (List.getElem_mem hn))]
  rfl

theorem all_acknowledged {bound : Nat} {read : Option (ChunkError τ)}
    (h : Region P s log 0 0 bound [] read) (hgone : ∀ w ∈ s.workers, w.pc.isLive = false)
    (hall : s.workers.length = P.totalChunks) (hnone : log.errors = []) {i : Nat}
    (hi : i < P.totalChunks) : i ∈ log.published.map Prod.fst ∧ i ∈ log.acknowledged := by
  rw [← hall] at hi
  have hinv := h.crew.each i _ (List.getElem?_eq_getElem hi)
  have hpc := WorkerPc.eq_gone (hgone _ (List.getElem_mem hi))
  obtain ⟨msg, hmsg⟩ := P.sendChunk_isSome s.workers[i].idx s.workers[i].offset
  have hsent : (i, msg) ∈ log.published := by
    rw [hinv.published, hpc]
    exact ⟨(by intro hc; cases hc), hmsg⟩
  refine ⟨List.mem_map.mpr ⟨_, hsent, rfl⟩, ?_⟩
  have houtcome := hinv.outcome
  rw [hpc] at houtcome
  cases houtcome with
  | inl hack => exact hack.1
  | inr herr =>
    obtain ⟨e, he⟩ := herr.2
    rw [hnone] at he
    cases he

theorem not_acknowledged {bound : Nat} {read : Option (ChunkError τ)}
    (h : Region P s log 0 0 bound [] read) (hgone : ∀ w ∈ s.workers, w.pc.isLive = false)
    {i : Nat} {e : ChunkError τ} (he : (i, e) ∈ log.errors) : i ∉ log.acknowledged := by
  intro hack
  have hi := h.crew.acknowledged_lt i hack
  have houtcome := (h.crew.each i _ (List.getElem?_eq_getElem hi)).outcome
  rw [WorkerPc.eq_gone (hgone _ (List.getElem_mem hi))] at houtcome
  cases houtcome with
  | inl hclean => exact hclean.2 e he
  | inr herr => exact herr.1 hack

end Results

/-- `sendChunksPipelined`, whatever the pool and the exchanges come to and however the
goroutines interleave: at most `maxInFlight` chunks have a token at a time, and when the call
returns no goroutine is left, every handle has been released once, the result is nil if and
only if every chunk was sent and acknowledged, and any other result is an error that one of
the chunks met. -/
theorem pipelined_send_reports (P : ChunkPhase) (τ : Type) (s : PipelineState τ)
    (log : PipelineLog τ)
    (hr : Reachable (P.logged τ) (fun _ _ => True) (.start, .new) (s, log)) :
    s.workers.countP (fun w => w.pc.hasToken) ≤ P.inFlight ∧
    ∀ error, s.main = .returned error →
      (∀ w ∈ s.workers, w.pc = .gone) ∧
      log.released.Perm (List.range log.acquired.length) ∧
      (error = none ↔ ∀ i, i < P.totalChunks →
        i ∈ log.published.map Prod.fst ∧ i ∈ log.acknowledged) ∧
      (error = none → log.errors = []) ∧
      ∀ e, error = some e → ∃ i, (i, e) ∈ log.errors := by
  have h := pipelineInv_reachable hr
  constructor
  · obtain ⟨tokens, group, bound, held, read, hregion⟩ := h.region
    exact Nat.le_trans hregion.sem.countP_le hregion.cap
  · intro error hmain
    rw [hmain] at h
    obtain ⟨⟨bound, hregion⟩, hgone, hnone⟩ := h
    have hmet : ∀ e, error = some e → ∃ i, (i, e) ∈ log.errors := by
      intro e he
      obtain ⟨x, hx, rfl⟩ := List.mem_map.mp (hregion.reported.read_mem e he)
      exact ⟨x.1, hx⟩
    refine ⟨fun w hw => WorkerPc.eq_gone (hgone w hw), released_perm hregion hgone, ⟨?_, ?_⟩,
      fun hnil => (hnone hnil).2, hmet⟩
    · intro hnil i hi
      exact all_acknowledged hregion hgone (hnone hnil).1 (hnone hnil).2 hi
    · intro hall
      cases error with
      | none => rfl
      | some e =>
        obtain ⟨i, hi⟩ := hmet e rfl
        have hlt := Nat.lt_of_lt_of_le (hregion.errors_lt _ hi) hregion.bound_le
        exact absurd (hall i hlt).2 (not_acknowledged hregion hgone hi)

/-- Two of three chunks fail, and the error of the second one to fail is dropped. -/
theorem pipelined_send_reports_two :
    let P : ChunkPhase := ⟨⟨25, 0, 2, [1, 2, 3], 7, 9⟩, by decide⟩
    ∃ p, Reachable (P.logged Nat) (fun _ _ => True) (.start, .new) p ∧
      p.1.main = .returned (some (.rejected 1)) ∧
      p.2.errors = [(1, .rejected 1), (0, .transport 99)] ∧
      (∀ w ∈ p.1.workers, w.pc = .gone) ∧
      p.2.released.Perm (List.range p.2.acquired.length) := by
  let P : ChunkPhase := ⟨⟨25, 0, 2, [1, 2, 3], 7, 9⟩, by decide⟩
  obtain ⟨p, hr, hp⟩ := exists_reachable_of_run (P.logged Nat) (.start, .new)
    [.main, .main, .main, .acquired 5, .main, .main, .main, .main, .acquired 6, .main,
      .worker 0, .worker 1, .reply 1 (.answered .systemError), .worker 1, .reply 0 (.failed 99),
      .worker 0, .main, .worker 0, .worker 1, .worker 1, .worker 1, .worker 0, .worker 0, .main]
    (fun p => decide (p.1.main = .returned (some (.rejected 1)) ∧
      p.2.errors = [(1, .rejected 1), (0, .transport 99)])) (by decide)
  rw [decide_eq_true_eq] at hp
  obtain ⟨hgone, hreleased, -⟩ := (pipelined_send_reports P Nat p.1 p.2 hr).2 _ hp.1
  exact ⟨p, hr, hp.1, hp.2, hgone, hreleased⟩

end ShmIpc.Stream.Go
