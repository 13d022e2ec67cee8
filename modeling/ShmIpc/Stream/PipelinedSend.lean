import ShmIpc.Library.ForkJoin
import ShmIpc.Stream.GuestSendInvariant

/-!
The chunk phase of the Go sender, with the pool and the exchanges left open: the pool hands
out a slot or an error as it likes, and `slot.Send` comes back with any response or with an
error of the transport. `sendChunksPipelined` runs beside one goroutine for each chunk it
has launched, and every step that another goroutine can see is a step of its own.

A goroutine and the handle it was given are numbered by the launches. The log is an
observer's: no step reads it.
-/

namespace ShmIpc.Stream.Go
open Library

/-- What the chunk phase is called with: `sendStart` has found room for a chunk header. -/
structure ChunkPhase extends GuestSend where
  room : chunkHeaderSize < bufLen

/-- The errors of the chunk phase. `noFreeSlot` wraps the error of the pool. -/
inductive ChunkError (τ : Type)
  | noFreeSlot (cause : τ)
  | bufferOverflow
  | transport (cause : τ)
  | rejected (idx : Nat)
  deriving DecidableEq

/-- What `slot.Send` returns. -/
inductive Reply (τ : Type)
  | failed (cause : τ)
  | answered (respType : MsgType)

/-- The error that `sendChunk` makes of it. -/
def Reply.error {τ : Type} (idx : Nat) : Reply τ → Option (ChunkError τ)
  | .failed cause => some (.transport cause)
  | .answered respType => if respType = .systemError then some (.rejected idx) else none

/-- Where `sendChunksPipelined` is. From `acquire` to `deadline` it is in `acquireSlot`. -/
inductive PipelinePc (τ : Type)
  | top (idx offset : Nat)
  | token (idx offset : Nat)
  | add (idx offset : Nat)
  | acquire (idx offset : Nat)
  | missed (idx offset : Nat) (cause : τ)
  | deadline (idx offset : Nat) (cause : τ)
  | launch (slot idx offset : Nat)
  | leave (error : ChunkError τ)
  | done (error : ChunkError τ)
  | join (error : Option (ChunkError τ))
  | collect
  | returned (error : Option (ChunkError τ))
  deriving DecidableEq

/-- Where the goroutine of a chunk is: in `sendChunk`, at the send on `errChan`, and in the
deferred calls, the last of which is `wg.Done`. -/
inductive WorkerPc (τ : Type)
  | send
  | waiting
  | failed (error : ChunkError τ)
  | release
  | token
  | done
  | gone
  deriving DecidableEq

structure Worker (τ : Type) where
  slot : Nat
  idx : Nat
  offset : Nat
  pc : WorkerPc τ
  deriving DecidableEq

structure PipelineState (τ : Type) where
  main : PipelinePc τ
  sem : Nat
  wg : Nat
  errChan : Option (ChunkError τ)
  workers : List (Worker τ)

inductive PipelineAction (τ : Type)
  /-- The next step of `sendChunksPipelined`. -/
  | main
  /-- `AcquireGuestSlot` returns this slot. -/
  | acquired (slot : Nat)
  /-- `AcquireGuestSlot` returns this error. -/
  | refused (cause : τ)
  /-- The clock is read, and the deadline has passed or not. -/
  | clock (expired : Bool)
  /-- The next step of a goroutine. -/
  | worker (n : Nat)
  /-- The `slot.Send` of a goroutine returns. -/
  | reply (n : Nat) (r : Reply τ)

namespace PipelineState

variable {τ : Type}

def start : PipelineState τ := ⟨.top 0 0, 0, 0, none, []⟩

def mainStep (P : ChunkPhase) (s : PipelineState τ) : Option (PipelineState τ) :=
  match s.main with
  | .top idx offset =>
    if offset < P.data.length then
      match s.errChan with
      | some e => some { s with errChan := none, main := .join (some e) }
      | none => some { s with main := .token idx offset }
    else some { s with main := .join none }
  | .token idx offset =>
    if s.sem < P.inFlight then some { s with sem := s.sem + 1, main := .add idx offset } else none
  | .add idx offset => some { s with wg := s.wg + 1, main := .acquire idx offset }
  | .acquire _ _ => none
  | .missed idx offset cause =>
    match s.errChan with
    | some e => some { s with errChan := none, main := .leave e }
    | none => some { s with main := .deadline idx offset cause }
  | .deadline _ _ _ => none
  | .launch slot idx offset =>
    some { s with
      workers := s.workers ++ [⟨slot, idx, offset, .send⟩]
      main := .top ((idx + 1) % 2 ^ 32) (P.blockEnd offset) }
  | .leave e => if 0 < s.sem then some { s with sem := s.sem - 1, main := .done e } else none
  | .done e => some { s with wg := s.wg - 1, main := .join (some e) }
  | .join (some e) => if s.wg = 0 then some { s with main := .returned (some e) } else none
  | .join none => if s.wg = 0 then some { s with main := .collect } else none
  | .collect => some { s with errChan := none, main := .returned s.errChan }
  | .returned _ => none

def acquired (s : PipelineState τ) (slot : Nat) : Option (PipelineState τ) :=
  match s.main with
  | .acquire idx offset => some { s with main := .launch slot idx offset }
  | _ => none

def refused (s : PipelineState τ) (cause : τ) : Option (PipelineState τ) :=
  match s.main with
  | .acquire idx offset => some { s with main := .missed idx offset cause }
  | _ => none

/-- `acquireSlot` gives up, or sleeps and tries again. -/
def clock (s : PipelineState τ) (expired : Bool) : Option (PipelineState τ) :=
  match s.main with
  | .deadline idx offset cause =>
    if expired then some { s with main := .leave (.noFreeSlot cause) }
    else some { s with main := .acquire idx offset }
  | _ => none

def setWorker (s : PipelineState τ) (n : Nat) (w : Worker τ) (pc : WorkerPc τ) :
    PipelineState τ :=
  { s with workers := s.workers.set n { w with pc := pc } }

def workerStep (P : ChunkPhase) (s : PipelineState τ) (n : Nat) : Option (PipelineState τ) :=
  match s.workers[n]? with
  | none => none
  | some w =>
    match w.pc with
    | .send =>
      match P.sendChunk w.idx w.offset with
      | some _ => some (s.setWorker n w .waiting)
      | none => some (s.setWorker n w (.failed .bufferOverflow))
    | .waiting => none
    | .failed e => some { s.setWorker n w .release with errChan := offer s.errChan e }
    | .release => some (s.setWorker n w .token)
    | .token =>
      if 0 < s.sem then some { s.setWorker n w .done with sem := s.sem - 1 } else none
    | .done => some { s.setWorker n w .gone with wg := s.wg - 1 }
    | .gone => none

def reply (s : PipelineState τ) (n : Nat) (r : Reply τ) : Option (PipelineState τ) :=
  match s.workers[n]? with
  | none => none
  | some w =>
    match w.pc with
    | .waiting =>
      match r.error w.idx with
      | some e => some (s.setWorker n w (.failed e))
      | none => some (s.setWorker n w .release)
    | _ => none

def step (P : ChunkPhase) (s : PipelineState τ) : PipelineAction τ → Option (PipelineState τ)
  | .main => s.mainStep P
  | .acquired slot => s.acquired slot
  | .refused cause => s.refused cause
  | .clock expired => s.clock expired
  | .worker n => s.workerStep P n
  | .reply n r => s.reply n r

end PipelineState

section Main

variable {τ : Type} {P : ChunkPhase} {s s' : PipelineState τ}

/-- The steps of `sendChunksPipelined`, by where it is. -/
inductive MainMove (P : ChunkPhase) (s : PipelineState τ) : PipelinePc τ → PipelineState τ → Prop
  | next (idx offset : Nat) (hlt : offset < P.data.length) (hnone : s.errChan = none) :
      MainMove P s (.top idx offset) { s with main := .token idx offset }
  | stop (idx offset : Nat) (e : ChunkError τ) (hlt : offset < P.data.length)
      (herr : s.errChan = some e) :
      MainMove P s (.top idx offset) { s with errChan := none, main := .join (some e) }
  | last (idx offset : Nat) (hge : ¬ offset < P.data.length) :
      MainMove P s (.top idx offset) { s with main := .join none }
  | token (idx offset : Nat) (hfree : s.sem < P.inFlight) :
      MainMove P s (.token idx offset) { s with sem := s.sem + 1, main := .add idx offset }
  | add (idx offset : Nat) :
      MainMove P s (.add idx offset) { s with wg := s.wg + 1, main := .acquire idx offset }
  | retry (idx offset : Nat) (cause : τ) (hnone : s.errChan = none) :
      MainMove P s (.missed idx offset cause) { s with main := .deadline idx offset cause }
  | abort (idx offset : Nat) (cause : τ) (e : ChunkError τ) (herr : s.errChan = some e) :
      MainMove P s (.missed idx offset cause) { s with errChan := none, main := .leave e }
  | launch (slot idx offset : Nat) :
      MainMove P s (.launch slot idx offset)
        { s with
          workers := s.workers ++ [⟨slot, idx, offset, .send⟩]
          main := .top ((idx + 1) % 2 ^ 32) (P.blockEnd offset) }
  | leave (e : ChunkError τ) (hheld : 0 < s.sem) :
      MainMove P s (.leave e) { s with sem := s.sem - 1, main := .done e }
  | done (e : ChunkError τ) :
      MainMove P s (.done e) { s with wg := s.wg - 1, main := .join (some e) }
  | fail (e : ChunkError τ) (hzero : s.wg = 0) :
      MainMove P s (.join (some e)) { s with main := .returned (some e) }
  | join (hzero : s.wg = 0) : MainMove P s (.join none) { s with main := .collect }
  | collect : MainMove P s .collect { s with errChan := none, main := .returned s.errChan }

theorem mainMove_of_step (hs' : s.mainStep P = some s') : MainMove P s s.main s' := by
  unfold PipelineState.mainStep at hs'
  cases hpc : s.main with
  | top idx offset =>
    simp only [hpc] at hs'
    split at hs'
    case isTrue hlt =>
      split at hs'
      case h_1 e herr =>
        cases hs'
        exact .stop idx offset e hlt herr
      case h_2 hnone =>
        cases hs'
        exact .next idx offset hlt hnone
    case isFalse hge =>
      cases hs'
      exact .last idx offset hge
  | token idx offset =>
    simp only [hpc] at hs'
    split at hs'
    case isTrue hfree =>
      cases hs'
      exact .token idx offset hfree
    · cases hs'
  | missed idx offset cause =>
    simp only [hpc] at hs'
    split at hs'
    case h_1 e herr =>
      cases hs'
      exact .abort idx offset cause e herr
    case h_2 hnone =>
      cases hs'
      exact .retry idx offset cause hnone
  | leave e =>
    simp only [hpc] at hs'
    split at hs'
    case isTrue hheld =>
      cases hs'
      exact .leave e hheld
    · cases hs'
  | join error =>
    cases error with
    | none =>
      simp only [hpc] at hs'
      split at hs'
      case isTrue hzero =>
        cases hs'
        exact .join hzero
      · cases hs'
    | some e =>
      simp only [hpc] at hs'
      split at hs'
      case isTrue hzero =>
        cases hs'
        exact .fail e hzero
      · cases hs'
  | add idx offset =>
    simp only [hpc, Option.some.injEq] at hs'
    subst hs'
    exact .add idx offset
  | launch slot idx offset =>
    simp only [hpc, Option.some.injEq] at hs'
    subst hs'
    exact .launch slot idx offset
  | done e =>
    simp only [hpc, Option.some.injEq] at hs'
    subst hs'
    exact .done e
  | collect =>
    simp only [hpc, Option.some.injEq] at hs'
    subst hs'
    exact .collect
  | acquire | deadline | returned => simp only [hpc, reduceCtorEq] at hs'

end Main

/-- What has happened: the slots of the handles in the order they were acquired, the handles
released, the messages published, the chunks acknowledged, and every error with the chunk
it befell. -/
structure PipelineLog (τ : Type) where
  acquired : List Nat
  released : List Nat
  published : List (Nat × List UInt8)
  acknowledged : List Nat
  errors : List (Nat × ChunkError τ)

namespace PipelineLog

variable {τ : Type}

def new : PipelineLog τ := ⟨[], [], [], [], []⟩

def fail (log : PipelineLog τ) (n : Nat) (e : ChunkError τ) : PipelineLog τ :=
  { log with errors := log.errors ++ [(n, e)] }

def publish (log : PipelineLog τ) (n : Nat) (msg : List UInt8) : PipelineLog τ :=
  { log with published := log.published ++ [(n, msg)] }

def release (log : PipelineLog τ) (n : Nat) : PipelineLog τ :=
  { log with released := log.released ++ [n] }

def acknowledge (log : PipelineLog τ) (n : Nat) : PipelineLog τ :=
  { log with acknowledged := log.acknowledged ++ [n] }

end PipelineLog

section Record

variable {τ : Type}

def recordWorker (P : ChunkPhase) (n : Nat) (w : Worker τ) (log : PipelineLog τ) : PipelineLog τ :=
  match w.pc with
  | .send =>
    match P.sendChunk w.idx w.offset with
    | some msg => log.publish n msg
    | none => log.fail n .bufferOverflow
  | .release => log.release n
  | _ => log

def recordReply (n : Nat) (w : Worker τ) (r : Reply τ) (log : PipelineLog τ) : PipelineLog τ :=
  match r.error w.idx with
  | some e => log.fail n e
  | none => log.acknowledge n

def recordPipeline (P : ChunkPhase) (s : PipelineState τ) (a : PipelineAction τ)
    (_ : PipelineState τ) (log : PipelineLog τ) : PipelineLog τ :=
  match a with
  | .acquired slot => { log with acquired := log.acquired ++ [slot] }
  | .clock expired =>
    match s.main with
    | .deadline _ _ cause =>
      if expired then log.fail s.workers.length (.noFreeSlot cause) else log
    | _ => log
  | .worker n =>
    match s.workers[n]? with
    | some w => recordWorker P n w log
    | none => log
  | .reply n r =>
    match s.workers[n]? with
    | some w => recordReply n w r log
    | none => log
  | .main | .refused _ => log

end Record

/-- A call of `sendChunksPipelined` with its log. -/
def ChunkPhase.logged (P : ChunkPhase) (τ : Type) :
    PipelineState τ × PipelineLog τ → PipelineAction τ →
      Option (PipelineState τ × PipelineLog τ) :=
  recorded (PipelineState.step P) (recordPipeline P)

/-! ### The goroutines -/

namespace WorkerPc

variable {τ : Type}

def hasToken : WorkerPc τ → Bool
  | .send | .waiting | .failed _ | .release | .token => true
  | .done | .gone => false

def isLive : WorkerPc τ → Bool
  | .gone => false
  | _ => true

def hasReleased : WorkerPc τ → Bool
  | .token | .done | .gone => true
  | _ => false

/-- The goroutine has an error that it has not offered yet. -/
def hasError : WorkerPc τ → Bool
  | .failed _ => true
  | _ => false

end WorkerPc

section Crew

variable {τ : Type}

/-- What the log says about the chunk of a goroutine. -/
def Outcome (log : PipelineLog τ) (n : Nat) : WorkerPc τ → Prop
  | .send | .waiting => n ∉ log.acknowledged ∧ ∀ e, (n, e) ∉ log.errors
  | .failed e => n ∉ log.acknowledged ∧ (n, e) ∈ log.errors
  | .release | .token | .done | .gone =>
    (n ∈ log.acknowledged ∧ ∀ e, (n, e) ∉ log.errors) ∨
      (n ∉ log.acknowledged ∧ ∃ e, (n, e) ∈ log.errors)

structure WorkerInv (P : ChunkPhase) (log : PipelineLog τ) (n : Nat) (w : Worker τ) : Prop where
  idx : w.idx = n % 2 ^ 32
  offset : w.offset = n * P.maxPayload
  released : n ∈ log.released ↔ w.pc.hasReleased = true
  published : ∀ msg, (n, msg) ∈ log.published ↔
    w.pc ≠ .send ∧ P.sendChunk w.idx w.offset = some msg
  outcome : Outcome log n w.pc

/-- The goroutines launched so far. -/
structure Crew (P : ChunkPhase) (workers : List (Worker τ)) (log : PipelineLog τ) : Prop where
  each : ∀ n w, workers[n]? = some w → WorkerInv P log n w
  released : log.released.Nodup
  released_lt : ∀ n ∈ log.released, n < workers.length
  published : (log.published.map Prod.fst).Nodup
  published_lt : ∀ x ∈ log.published, x.1 < workers.length
  acknowledged_lt : ∀ n ∈ log.acknowledged, n < workers.length

/-- The log changes at most in what it says about chunk `n`. -/
structure OnlyAt (n : Nat) (log log' : PipelineLog τ) : Prop where
  acquired : log'.acquired = log.acquired
  acknowledged : ∀ m, m ≠ n → (m ∈ log'.acknowledged ↔ m ∈ log.acknowledged)
  released : ∀ m, m ≠ n → (m ∈ log'.released ↔ m ∈ log.released)
  published : ∀ m msg, m ≠ n → ((m, msg) ∈ log'.published ↔ (m, msg) ∈ log.published)
  errors : ∀ m e, m ≠ n → ((m, e) ∈ log'.errors ↔ (m, e) ∈ log.errors)

variable {P : ChunkPhase} {workers : List (Worker τ)} {log log' : PipelineLog τ} {n : Nat}
  {w w' : Worker τ}

theorem onlyAt_refl (n : Nat) (log : PipelineLog τ) : OnlyAt n log log :=
  ⟨rfl, fun _ _ => Iff.rfl, fun _ _ => Iff.rfl, fun _ _ _ => Iff.rfl, fun _ _ _ => Iff.rfl⟩

theorem mem_append_of_ne {α : Type} {l : List α} {a b : α} (hne : a ≠ b) :
    a ∈ l ++ [b] ↔ a ∈ l := by
  rw [List.mem_append, List.mem_singleton, or_iff_left hne]

theorem onlyAt_fail (n : Nat) (e : ChunkError τ) (log : PipelineLog τ) :
    OnlyAt n log (log.fail n e) where
  acquired := rfl
  acknowledged _ _ := Iff.rfl
  released _ _ := Iff.rfl
  published _ _ _ := Iff.rfl
  errors _ _ hne := mem_append_of_ne fun heq => hne (congrArg Prod.fst heq)

theorem onlyAt_publish (n : Nat) (msg : List UInt8) (log : PipelineLog τ) :
    OnlyAt n log (log.publish n msg) where
  acquired := rfl
  acknowledged _ _ := Iff.rfl
  released _ _ := Iff.rfl
  published _ _ hne := mem_append_of_ne fun heq => hne (congrArg Prod.fst heq)
  errors _ _ _ := Iff.rfl

theorem onlyAt_release (n : Nat) (log : PipelineLog τ) : OnlyAt n log (log.release n) where
  acquired := rfl
  acknowledged _ _ := Iff.rfl
  released _ hne := mem_append_of_ne hne
  published _ _ _ := Iff.rfl
  errors _ _ _ := Iff.rfl

theorem onlyAt_acknowledge (n : Nat) (log : PipelineLog τ) :
    OnlyAt n log (log.acknowledge n) where
  acquired := rfl
  acknowledged _ hne := mem_append_of_ne hne
  released _ _ := Iff.rfl
  published _ _ _ := Iff.rfl
  errors _ _ _ := Iff.rfl

theorem Outcome.congr {pc : WorkerPc τ} (h : Outcome log n pc)
    (hack : n ∈ log'.acknowledged ↔ n ∈ log.acknowledged)
    (herr : ∀ e, (n, e) ∈ log'.errors ↔ (n, e) ∈ log.errors) : Outcome log' n pc := by
  cases pc with
  | send | waiting | failed | release | token | done | gone =>
    simp only [Outcome, hack, herr] at h ⊢
    exact h

theorem WorkerInv.of_onlyAt (h : WorkerInv P log n w) {m : Nat} (hne : n ≠ m)
    (hlog : OnlyAt m log log') : WorkerInv P log' n w where
  idx := h.idx
  offset := h.offset
  released := (hlog.released n hne).trans h.released
  published msg := (hlog.published n msg hne).trans (h.published msg)
  outcome := h.outcome.congr (hlog.acknowledged n hne) fun e => hlog.errors n e hne

theorem lt_of_onlyAt {k m : Nat} {p p' : Nat → Prop} (hn : n < k) (hp : ∀ m, p m → m < k)
    (hother : ∀ m, m ≠ n → (p' m ↔ p m)) (hm : p' m) : m < k := by
  by_cases heq : m = n
  · exact heq ▸ hn
  · exact hp m ((hother m heq).mp hm)

theorem Crew.move (h : Crew P workers log) (hw : workers[n]? = some w) (hlog : OnlyAt n log log')
    (hinv : WorkerInv P log' n w') (hreleased : log'.released.Nodup)
    (hpublished : (log'.published.map Prod.fst).Nodup) : Crew P (workers.set n w') log' := by
  obtain ⟨hlt, -⟩ := List.getElem?_eq_some_iff.mp hw
  refine ⟨?_, hreleased, ?_, hpublished, ?_, ?_⟩
  · intro m v hm
    rw [List.getElem?_set] at hm
    split at hm
    case isTrue heq =>
      subst heq
      cases hm
      exact hinv
    case isFalse hne => exact (h.each m v hm).of_onlyAt (Ne.symm hne) hlog
  · intro m hm
    rw [List.length_set]
    exact lt_of_onlyAt hlt h.released_lt hlog.released hm
  · rintro ⟨m, msg⟩ hm
    rw [List.length_set]
    exact lt_of_onlyAt hlt (fun m hm => h.published_lt (m, msg) hm)
      (fun m hne => hlog.published m msg hne) hm
  · intro m hm
    rw [List.length_set]
    exact lt_of_onlyAt hlt h.acknowledged_lt hlog.acknowledged hm

theorem Crew.fork (h : Crew P workers log) (hinv : WorkerInv P log workers.length w) :
    Crew P (workers ++ [w]) log := by
  have hle : workers.length ≤ (workers ++ [w]).length := by
    rw [List.length_append]
    exact Nat.le_add_right _ _
  refine ⟨?_, h.released, fun m hm => Nat.lt_of_lt_of_le (h.released_lt m hm) hle, h.published,
    fun x hx => Nat.lt_of_lt_of_le (h.published_lt x hx) hle,
    fun m hm => Nat.lt_of_lt_of_le (h.acknowledged_lt m hm) hle⟩
  intro m v hm
  rw [List.getElem?_append] at hm
  split at hm
  · exact h.each m v hm
  case isFalse hge =>
    obtain ⟨hlt, hv⟩ := List.getElem?_eq_some_iff.mp hm
    rw [List.length_singleton] at hlt
    obtain rfl : m = workers.length := by omega
    rw [List.getElem_singleton] at hv
    rw [← hv]
    exact hinv

end Crew

end ShmIpc.Stream.Go
