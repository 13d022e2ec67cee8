import ShmIpc.Stream.SendQueue

/-!
The books of one call of `StreamSender::Send`: every slot it acquires, what for, and how
that acquisition ends; every message it publishes; and which of its chunks the guest has
acknowledged. Acquisitions fail whenever they like, in the pool as well as in a fixed
range. A chunk is acknowledged by the reassembler only, but a worker may reject whatever
it finds, and the reassembler serves other streams and gives up streams as it likes.
-/

namespace ShmIpc.Stream
open Library

inductive WaitResult
  | acknowledged
  | rejected
  | timedOut
  deriving DecidableEq, Repr

/-- What a slot is acquired for. -/
inductive Cargo
  | abort
  | start
  | chunk (index : Nat)
  deriving DecidableEq, Repr

structure Acquisition where
  slot : Nat
  cargo : Cargo
  deriving DecidableEq, Repr

structure SendLog where
  acquired : List Acquisition
  unwaited : List Acquisition
  waits : List (Acquisition × WaitResult)
  refused : List Acquisition
  published : List (MsgType × List UInt8)
  taken : List Nat

namespace SendLog

def new : SendLog := ⟨[], [], [], [], [], []⟩

/-- A slot is acquired and, unless that is refused, a message published on it. -/
def acquire (log : SendLog) (a : Acquisition) : SlotUse → SendLog
  | .published m req =>
    { log with
      acquired := log.acquired ++ [a]
      unwaited := log.unwaited ++ [a]
      published := log.published ++ [(m, req)] }
  | _ => { log with acquired := log.acquired ++ [a], refused := log.refused ++ [a] }

def close (log : SendLog) (slot : Nat) (result : WaitResult) : SendLog :=
  match log.unwaited.find? fun a => a.slot = slot with
  | none => log
  | some a =>
    { log with
      unwaited := log.unwaited.erase a
      waits := log.waits ++ [(a, result)] }

/-- The chunks that were sent and not yet waited for. -/
def pendingChunks (log : SendLog) : List Nat :=
  log.unwaited.filterMap fun a =>
    match a.cargo with
    | .chunk index => some index
    | _ => none

theorem close_head {log : SendLog} {a : Acquisition} {rest : List Acquisition}
    (h : log.unwaited = a :: rest) (result : WaitResult) :
    log.close a.slot result =
      { log with unwaited := rest, waits := log.waits ++ [(a, result)] } := by
  simp only [close, h, List.find?_cons, decide_true, List.erase_cons_head]

end SendLog

inductive SenderAction
  | acquire (slot : Nat)
  | refused
  | proceed
  | timeout
  | work (slot : Nat) (env : Go.Surroundings)
  | fault (slot : Nat)
  | stranger (env : Go.Surroundings) (msgType : MsgType) (req : List UInt8)

namespace SendState

/-- `acquireSlot` returns -1: the START gives up, the fill loop breaks to drain. -/
def refuse (P : SendCall) (s : SendState) : Option SendState :=
  match s.phase with
  | .start => some { s with phase := .returned (.failure .resourceExhausted) }
  | .fill => if s.canFill P then some { s with phase := .drain } else none
  | _ => none

/-- A message that is none of this stream's. -/
def stranger (P : SendCall) (s : SendState) (env : Go.Surroundings) (m : MsgType)
    (req : List UInt8) : Option SendState :=
  if addressedTo P.streamId m req then none else some (s.handle env m req).1

def sendStep (P : SendCall) (s : SendState) : SenderAction → Option SendState
  | .acquire slot => s.acquire P slot
  | .refused => s.refuse P
  | .proceed => s.proceed P
  | .timeout => s.timeout
  | .work slot env => s.work slot env
  | .fault slot => SendLoop.answer s slot .systemError
  | .stranger env m req => s.stranger P env m req

def cargo (P : SendCall) (s : SendState) : Cargo :=
  match s.phase with
  | .start => if P.maxReqSize ≤ chunkHeaderSize then .abort else .start
  | _ => .chunk s.chunkIndex

/-- The slot whose answer the thread waits for. -/
def waitsOn (s : SendState) : Option Nat :=
  match s.phase with
  | .startWait slot | .abortWait slot => some slot
  | .drain | .failing _ => s.pendingSlots.head?
  | _ => none

/-- The chunk that the guest acknowledges when the worker of a slot runs. -/
def takenBy (s : SendState) (slot : Nat) (env : Go.Surroundings) : Option Nat :=
  match s.slots slot with
  | .published .streamChunk req | .abandoned .streamChunk req =>
    if (s.handle env .streamChunk req).2 = .systemError then none
    else some (parseChunkHeader req).chunkIndex
  | _ => none

end SendState

def SlotUse.result : SlotUse → WaitResult
  | .answered reply => if reply = .systemError then .rejected else .acknowledged
  | _ => .timedOut

def recordSend (P : SendCall) (s : SendState) (a : SenderAction) (s' : SendState)
    (log : SendLog) : SendLog :=
  match a with
  | .acquire slot => log.acquire ⟨slot, s.cargo P⟩ (s'.slots slot)
  | .proceed =>
    match s.waitsOn with
    | none => log
    | some slot => log.close slot (s.slots slot).result
  | .timeout =>
    match s.waitsOn with
    | none => log
    | some slot => log.close slot .timedOut
  | .work slot env => { log with taken := log.taken ++ (s.takenBy slot env).toList }
  | .refused | .fault _ | .stranger _ _ _ => log

/-- A call of `Send` with its books. -/
def SendCall.logged (P : SendCall) :
    SendState × SendLog → SenderAction → Option (SendState × SendLog) :=
  recorded (SendState.sendStep P) (recordSend P)

namespace SendLoop

/-- The acquisitions of the chunks in the queue, the last of which is the last one sent. -/
def inQueue (sent : Nat) (queue : List Nat) : List Acquisition :=
  List.zipWith (fun slot index => ⟨slot, .chunk index⟩) queue
    (List.range' (sent - queue.length) queue.length)

/-- The books of the chunk loop: waits have been made in the order of the acquisitions, and
the queue is what is left. -/
structure Account (C : AnyCall) (sent : Nat) (queue : List Nat) (log : SendLog) : Prop where
  queue_le : queue.length ≤ sent
  unwaited : log.unwaited = inQueue sent queue
  acquired : log.acquired = log.waits.map Prod.fst ++ log.unwaited
  refused : log.refused = []
  cargo : log.acquired.map Acquisition.cargo = .start :: (List.range sent).map .chunk
  published : log.published = (.streamStart, C.call.startMsg) ::
    (List.range sent).map fun i => (.streamChunk, C.call.chunk i)

/-- The books before the first chunk. -/
structure Opening (a : Acquisition) (m : MsgType) (req : List UInt8) (log : SendLog) : Prop where
  acquired : log.acquired = [a]
  unwaited : log.unwaited = [a]
  waits : log.waits = []
  refused : log.refused = []
  published : log.published = [(m, req)]
  taken : log.taken = []

/-- The loop while nothing has gone wrong. -/
structure Running (C : AnyCall) (s : SendState) (log : SendLog) : Prop where
  sized : C.call.Sized
  queued : Queued C s
  window : s.pendingSlots.length ≤ C.call.maxInFlight
  account : Account C s.chunkIndex s.pendingSlots log
  clean : ∀ x ∈ log.waits, x.2 = .acknowledged
  below : ∀ i, i < s.drained → i ∈ log.taken
  carried : ∀ j slot, s.pendingSlots[j]? = some slot →
    s.slots slot = .published .streamChunk (C.call.chunk (s.drained + j)) ∨
    ∃ reply, s.slots slot = .answered reply ∧ (reply ≠ .systemError → s.drained + j ∈ log.taken)

/-- The error drain. What the guest can still take in was in the window of the failure. -/
structure Draining (C : AnyCall) (sent : Nat) (queue : List Nat) (log : SendLog) : Prop where
  sized : C.call.Sized
  sent_le : sent ≤ C.call.totalChunks
  window : queue.length ≤ C.call.maxInFlight
  account : Account C sent queue log
  low : ∃ low, sent ≤ low + C.call.maxInFlight ∧ ∀ i, i < low → i ∈ log.taken

/-- The call is over before its first chunk: nothing was acquired, or one slot, which was
waited on. -/
inductive Closed (log : SendLog) : Prop
  | untouched (hlog : log = .new)
  | opened (a : Acquisition) (result : WaitResult) (hacquired : log.acquired = [a])
      (hunwaited : log.unwaited = []) (hwaits : log.waits = [(a, result)])
      (hrefused : log.refused = []) (htaken : log.taken = [])

def Books (C : AnyCall) (s : SendState) (log : SendLog) : SendPhase → Prop
  | .enter => Fresh C s ∧ log = .new
  | .start => C.data.length ≤ Cpp.kMaxStreamSize ∧ Fresh C s ∧ log = .new
  | .abortWait slot => Started C s slot ∧ Opening ⟨slot, .abort⟩ .systemError [] log
  | .startWait slot =>
    C.call.Sized ∧ Started C s slot ∧ Opening ⟨slot, .start⟩ .streamStart C.call.startMsg log
  | .fill | .drain => Running C s log
  | .failing _ => Draining C s.chunkIndex s.pendingSlots log
  | .returned .success => Running C s log ∧ s.pendingSlots = [] ∧ s.remaining = 0
  | .returned (.failure _) =>
    Draining C s.chunkIndex s.pendingSlots log ∧ s.pendingSlots = [] ∨
      Closed log ∧ s.chunkIndex = 0

section Account

variable {C : AnyCall} {sent slot : Nat} {queue : List Nat} {log : SendLog}

theorem inQueue_push (hle : queue.length ≤ sent) :
    inQueue (sent + 1) (queue ++ [slot]) = inQueue sent queue ++ [⟨slot, .chunk sent⟩] := by
  have hfirst : sent + 1 - (queue.length + 1) = sent - queue.length := by omega
  have hlast : sent - queue.length + queue.length = sent := by omega
  rw [inQueue, List.length_append, List.length_singleton, hfirst, List.range'_1_concat, hlast,
    List.zipWith_append (by rw [List.length_range']), inQueue]
  rfl

theorem inQueue_cons (hle : queue.length + 1 ≤ sent) :
    inQueue sent (slot :: queue) =
      ⟨slot, .chunk (sent - (queue.length + 1))⟩ :: inQueue sent queue := by
  have hnext : sent - (queue.length + 1) + 1 = sent - queue.length := by omega
  rw [inQueue, List.length_cons, List.range'_succ, List.zipWith_cons_cons, hnext, inQueue]

theorem Account.push (h : Account C sent queue log) (slot : Nat) :
    Account C (sent + 1) (queue ++ [slot])
      (log.acquire ⟨slot, .chunk sent⟩ (.published .streamChunk (C.call.chunk sent))) where
  queue_le := by
    rw [List.length_append, List.length_singleton]
    exact Nat.succ_le_succ h.queue_le
  unwaited := by rw [inQueue_push h.queue_le, SendLog.acquire, h.unwaited]
  acquired := by simp only [SendLog.acquire, h.acquired, List.append_assoc]
  refused := h.refused
  cargo := by
    simp only [SendLog.acquire, List.map_append, h.cargo, List.range_succ, List.cons_append,
      List.map_cons, List.map_nil]
  published := by
    simp only [SendLog.acquire, h.published, List.range_succ, List.map_append, List.cons_append,
      List.map_cons, List.map_nil]

theorem Account.pop (h : Account C sent (slot :: queue) log) (result : WaitResult) :
    ∃ a, Account C sent queue (log.close slot result) ∧
      (log.close slot result).waits = log.waits ++ [(a, result)] ∧
      (log.close slot result).taken = log.taken := by
  have hle := h.queue_le
  rw [List.length_cons] at hle
  have hunwaited := h.unwaited
  rw [inQueue_cons hle] at hunwaited
  have hclose := SendLog.close_head hunwaited result
  rw [hclose]
  refine ⟨_, ⟨Nat.le_of_succ_le hle, rfl, ?_, h.refused, h.cargo, h.published⟩, rfl, rfl⟩
  rw [h.acquired, hunwaited, List.map_append, List.append_assoc]
  rfl

end Account

section Draining

variable {C : AnyCall} {sent slot : Nat} {queue : List Nat} {log : SendLog}

theorem Draining.pop (h : Draining C sent (slot :: queue) log) (result : WaitResult) :
    Draining C sent queue (log.close slot result) := by
  obtain ⟨a, haccount, -, htaken⟩ := h.account.pop result
  have hwindow := h.window
  rw [List.length_cons] at hwindow
  refine ⟨h.sized, h.sent_le, Nat.le_of_succ_le hwindow, haccount, ?_⟩
  rw [htaken]
  exact h.low

theorem Running.draining {s : SendState} (h : Running C s log) :
    Draining C s.chunkIndex s.pendingSlots log := by
  refine ⟨h.sized, h.queued.sent_le, h.window, h.account, s.drained, ?_, h.below⟩
  have hwindow := h.window
  simp only [SendState.drained]
  omega

end Draining

section Running

variable {C : AnyCall} {s : SendState} {log : SendLog}

theorem Running.withPhase (h : Running C s log) (phase : SendPhase) :
    Running C { s with phase := phase } log :=
  ⟨h.sized, h.queued.withPhase phase, h.window, h.account, h.clean, h.below, h.carried⟩

theorem Running.loopTest (h : Running C s log) : Books C s.loopTest log s.loopTest.phase := by
  simp only [SendState.loopTest]
  split
  · exact h.withPhase .fill
  case isFalse hdone =>
    rw [not_or, Nat.not_lt, Nat.le_zero, not_not] at hdone
    exact ⟨h.withPhase _, hdone.2, hdone.1⟩

theorem Running.acquire (h : Running C s log) (slot : Nat)
    (hslot : s.acquirable C.call slot = true) (hfill : s.canFill C.call = true) :
    ((s.advance C.call).sendChunk C.call slot).slots slot =
        .published .streamChunk (C.call.chunk s.chunkIndex) ∧
      ((s.advance C.call).sendChunk C.call slot).phase = s.phase ∧
      Running C ((s.advance C.call).sendChunk C.call slot)
        (log.acquire ⟨slot, .chunk s.chunkIndex⟩
          (.published .streamChunk (C.call.chunk s.chunkIndex))) := by
  obtain ⟨hpos, hroom⟩ := SendState.canFill_iff.mp hfill
  have hnew := h.queued.notMem_of_acquirable slot hslot
  rw [SendState.sendChunk_eq h.sized h.queued.remaining hpos slot]
  refine ⟨Function.update_self _ _ _, rfl, h.sized,
    h.queued.published h.sized slot hslot hfill, ?_, h.account.push slot, h.clean, ?_, ?_⟩
  · simp only [SendState.published, List.length_append, List.length_singleton]
    omega
  · rw [SendState.drained_published]
    exact h.below
  · intro j slot' hslot'
    rw [SendState.drained_published]
    cases SendState.getElem?_append_one hslot' with
    | inl hold =>
      simp only [SendState.published,
        Function.update_of_ne (SendState.getElem?_ne_of_notMem hnew hold)]
      exact h.carried j slot' hold
    | inr hlast =>
      have hle := h.queued.pending_le
      have hindex : s.drained + j = s.chunkIndex := by
        simp only [SendState.drained, hlast.1]
        omega
      simp only [SendState.published, hlast.2, Function.update_self, hindex]
      exact Or.inl trivial

theorem Running.pop (h : Running C s log) {slot : Nat} {rest : List Nat} {reply : MsgType}
    (hpending : s.pendingSlots = slot :: rest) (hans : s.slots slot = .answered reply)
    (hreply : reply ≠ .systemError) :
    Running C { s.setSlot slot .idle with pendingSlots := rest }
      (log.close slot .acknowledged) := by
  have haccount := h.account
  rw [hpending] at haccount
  obtain ⟨a, hpop, hwaits, htaken⟩ := haccount.pop .acknowledged
  have hle := h.queued.pending_le
  have hwindow := h.window
  have hnodup := h.queued.nodup
  rw [hpending, List.length_cons] at hle hwindow
  rw [hpending, List.nodup_cons] at hnodup
  have hdrained : ({ s.setSlot slot .idle with pendingSlots := rest } : SendState).drained =
      s.drained + 1 := by
    simp only [SendState.drained, SendState.setSlot, hpending, List.length_cons]
    omega
  refine ⟨h.sized, h.queued.tail hpending, Nat.le_of_succ_le hwindow, hpop, ?_, ?_, ?_⟩
  · intro x hx
    rw [hwaits, List.mem_append, List.mem_singleton] at hx
    cases hx with
    | inl hold => exact h.clean x hold
    | inr hlast => rw [hlast]
  · intro i hi
    rw [hdrained] at hi
    rw [htaken]
    by_cases hhead : i = s.drained
    · cases h.carried 0 slot (by rw [hpending]; rfl) with
      | inl hpub =>
        rw [hans] at hpub
        cases hpub
      | inr hreplied =>
        obtain ⟨reply', hans', htaken'⟩ := hreplied
        rw [hans] at hans'
        cases hans'
        rw [hhead]
        exact htaken' hreply
    · exact h.below i (by omega)
  · intro j slot' hslot'
    have hne : slot' ≠ slot := SendState.getElem?_ne_of_notMem hnodup.1 hslot'
    have hindex : s.drained + 1 + j = s.drained + (j + 1) := by omega
    rw [hdrained, htaken, hindex]
    simp only [SendState.setSlot, Function.update_of_ne hne]
    refine h.carried (j + 1) slot' ?_
    rw [hpending, List.getElem?_cons_succ]
    exact hslot'

end Running

/-- What the arguments of `Send` are by their types. -/
structure Typed (C : AnyCall) : Prop where
  streamId : C.streamId < 2 ^ 64
  appMsgType : C.appMsgType < 2 ^ 32

section Thread

variable {C : AnyCall} {s s' : SendState} {log : SendLog}

theorem acquirable_lt {slot : Nat} (h : s.acquirable C.call slot = true) : slot < C.numSlots := by
  simp only [SendState.acquirable, Bool.and_eq_true, decide_eq_true_eq] at h
  exact h.1.1

theorem Fresh.started (h : Fresh C s) {slot : Nat} (hslot : slot < C.numSlots) (m : MsgType)
    (req : List UInt8) (phase : SendPhase) :
    Started C { (s.advance C.call).setSlot slot (.published m req) with phase := phase } slot where
  remaining := h.remaining
  chunkIndex := h.chunkIndex
  rr := by
    intro hbase
    have hnot : ¬ C.call.baseSlot < 0 := Int.not_lt.mpr hbase
    simp only [SendState.setSlot, SendState.advance, if_neg hnot, h.rr]
    rfl
  pendingSlots := h.pendingSlots
  valid := hslot
  held := by simp only [SendState.setSlot, Function.update_self, SlotUse.isHeld]
  idle := by
    intro slot' hne
    simp only [SendState.setSlot, SendState.advance, Function.update_of_ne hne]
    exact h.idle slot'

theorem opening_acquire (a : Acquisition) (m : MsgType) (req : List UInt8) :
    Opening a m req (SendLog.new.acquire a (.published m req)) :=
  ⟨rfl, rfl, rfl, rfl, rfl, rfl⟩

theorem books_acquire (hC : Typed C) (h : Books C s log s.phase) {slot : Nat}
    (hs' : s.acquire C.call slot = some s') :
    Books C s' (log.acquire ⟨slot, s.cargo C.call⟩ (s'.slots slot)) s'.phase := by
  obtain ⟨hslot, huse⟩ := SendState.acquires_of_eq hs'
  generalize hphase : s.phase = phase at h huse
  cases huse with
  | abort hsmall =>
    obtain ⟨hsize, hfresh, rfl⟩ := h
    have hcargo : s.cargo C.call = .abort := by
      simp only [SendState.cargo, hphase, if_pos hsmall]
    simp only [hcargo, SendState.setSlot, Function.update_self]
    exact ⟨hfresh.started (acquirable_lt hslot) _ _ _, opening_acquire _ _ _⟩
  | start hroom =>
    obtain ⟨hsize, hfresh, rfl⟩ := h
    have hcargo : s.cargo C.call = .start := by
      simp only [SendState.cargo, hphase, if_neg (Nat.not_le.mpr hroom)]
    simp only [hcargo, SendState.setSlot, Function.update_self]
    exact ⟨⟨hroom, hsize, hC.streamId, hC.appMsgType⟩,
      hfresh.started (acquirable_lt hslot) _ _ _, opening_acquire _ _ _⟩
  | chunk hfill =>
    have hrunning : Running C s log := h
    obtain ⟨hpub, hsame, hnext⟩ := hrunning.acquire slot hslot hfill
    have hcargo : s.cargo C.call = .chunk s.chunkIndex := by
      simp only [SendState.cargo, hphase]
    rw [hpub, hsame, hphase, hcargo]
    exact hnext

theorem books_refuse (h : Books C s log s.phase) (hs' : s.refuse C.call = some s') :
    Books C s' log s'.phase := by
  simp only [SendState.refuse] at hs'
  split at hs'
  case h_1 hphase =>
    cases hs'
    rw [hphase] at h
    exact Or.inr ⟨.untouched h.2.2, h.2.1.chunkIndex⟩
  case h_2 hphase =>
    split at hs'
    · cases hs'
      rw [hphase] at h
      exact Running.withPhase h .drain
    · cases hs'
  · cases hs'

theorem Opening.close {a : Acquisition} {m : MsgType} {req : List UInt8}
    (h : Opening a m req log) (result : WaitResult) :
    log.close a.slot result = { log with unwaited := [], waits := [(a, result)] } := by
  rw [SendLog.close_head h.unwaited, h.waits, List.nil_append]

theorem Opening.closed {a : Acquisition} {m : MsgType} {req : List UInt8}
    (h : Opening a m req log) (result : WaitResult) : Closed (log.close a.slot result) := by
  rw [h.close]
  exact .opened a result h.acquired rfl rfl h.refused h.taken

theorem Opening.running (hC : C.call.Sized) {slot : Nat} (hstarted : Started C s slot)
    (h : Opening ⟨slot, .start⟩ .streamStart C.call.startMsg log) :
    Running C (s.setSlot slot .idle) (log.close slot .acknowledged) := by
  have hqueue : (s.setSlot slot .idle).pendingSlots = [] := hstarted.pendingSlots
  have hsent : (s.setSlot slot .idle).chunkIndex = 0 := hstarted.chunkIndex
  have hdrained : (s.setSlot slot .idle).drained = 0 := by
    rw [SendState.drained, hsent, Nat.zero_sub]
  rw [h.close .acknowledged]
  refine ⟨hC, hstarted.queued, ?_, ?_, ?_, ?_, ?_⟩
  · rw [hqueue]
    exact Nat.zero_le _
  · rw [hqueue, hsent]
    exact ⟨Nat.zero_le _, rfl, h.acquired, h.refused, congrArg _ h.acquired, h.published⟩
  · intro x hx
    rw [List.mem_singleton] at hx
    rw [hx]
  · intro i hi
    rw [hdrained] at hi
    exact absurd hi (Nat.not_lt_zero i)
  · intro j slot' hslot'
    rw [hqueue] at hslot'
    cases hslot'

theorem books_proceed (h : Books C s log s.phase) (hs' : s.proceed C.call = some s') :
    Books C s' (recordSend C.call s .proceed s' log) s'.phase := by
  have hgo := SendState.proceeds_of_eq hs'
  simp only [recordSend, SendState.waitsOn]
  generalize hphase : s.phase = phase at h hgo ⊢
  cases hgo with
  | tooLarge hlarge => exact Or.inr ⟨.untouched h.2, h.1.chunkIndex⟩
  | enter hsize =>
    exact ⟨Nat.le_of_not_lt hsize, ⟨h.1.remaining, h.1.chunkIndex, h.1.rr, h.1.pendingSlots,
      h.1.idle⟩, h.2⟩
  | startRejected slot hans =>
    obtain ⟨-, hstarted, hopening⟩ := h
    exact Or.inr ⟨hopening.closed _, hstarted.chunkIndex⟩
  | started slot reply hans hreply =>
    obtain ⟨hsized, hstarted, hopening⟩ := h
    simp only [hans, SlotUse.result, if_neg hreply]
    exact (hopening.running hsized hstarted).loopTest
  | aborted slot reply hans =>
    obtain ⟨hstarted, hopening⟩ := h
    exact Or.inr ⟨hopening.closed _, hstarted.chunkIndex⟩
  | filled hfull => exact Running.withPhase h .drain
  | loop hempty =>
    simp only [hempty]
    exact Running.loopTest h
  | rejected slot rest hpending hans =>
    have hdraining := Running.draining h
    rw [hpending] at hdraining
    simp only [hpending, List.head?_cons]
    exact hdraining.pop _
  | acknowledged slot rest reply hpending hans hreply =>
    simp only [hpending, List.head?_cons, hans, SlotUse.result, if_neg hreply]
    exact (Running.pop h hpending hans hreply).loopTest
  | failed error hempty =>
    have hdraining : Draining C s.chunkIndex s.pendingSlots log := h
    rw [hempty] at hdraining
    simp only [hempty, List.head?_nil]
    exact Or.inl ⟨hdraining, rfl⟩
  | drained error slot rest reply hpending hans =>
    have hdraining : Draining C s.chunkIndex s.pendingSlots log := h
    rw [hpending] at hdraining
    have hsame : (s.setSlot slot .idle).phase = .failing error := hphase
    simp only [hpending, List.head?_cons, hsame]
    exact hdraining.pop _

theorem chunkIndex_abandon (s : SendState) (slot : Nat) :
    (s.abandon slot).chunkIndex = s.chunkIndex := by
  unfold SendState.abandon
  split <;> rfl

theorem Draining.abandon {slot : Nat} {rest : List Nat}
    (h : Draining C s.chunkIndex (slot :: rest) log) :
    Draining C (s.abandon slot).chunkIndex rest (log.close slot .timedOut) := by
  rw [chunkIndex_abandon]
  exact h.pop .timedOut

theorem books_timeout (h : Books C s log s.phase) (hs' : s.timeout = some s') :
    Books C s' (recordSend C.call s .timeout s' log) s'.phase := by
  have hgo := SendState.expires_of_eq hs'
  simp only [recordSend, SendState.waitsOn]
  generalize hphase : s.phase = phase at h hgo ⊢
  cases hgo with
  | start slot =>
    exact Or.inr ⟨h.2.2.closed _, (chunkIndex_abandon s slot).trans h.2.1.chunkIndex⟩
  | abort slot =>
    exact Or.inr ⟨h.2.closed _, (chunkIndex_abandon s slot).trans h.1.chunkIndex⟩
  | drain slot rest hpending =>
    have hdraining := Running.draining h
    rw [hpending] at hdraining
    simp only [hpending, List.head?_cons]
    exact hdraining.abandon
  | failing error slot rest hpending =>
    have hdraining : Draining C s.chunkIndex s.pendingSlots log := h
    rw [hpending] at hdraining
    have hsame : (s.abandon slot).phase = .failing error :=
      (SendState.phase_abandon s slot).trans hphase
    simp only [hpending, List.head?_cons, hsame]
    exact hdraining.abandon

end Thread

end SendLoop

end ShmIpc.Stream
