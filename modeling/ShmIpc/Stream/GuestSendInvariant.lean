import ShmIpc.Library.Counting
import ShmIpc.Stream.GuestSender
import ShmIpc.Stream.HostSide

/-!
Where the chunks of a guest sender are. The goroutines launched so far are those of the
lowest indices; each of them has a slot of its own until it releases it, a chunk is
processed by the host exactly once, and a call that returns without an error has had its
start and every one of its chunks processed.
-/

namespace ShmIpc.Stream

/-- The chunk a processed message carried. -/
def Exchange.chunkIndex (x : Exchange) : Option Nat :=
  if x.msgType = .streamChunk then some (parseChunkHeader x.req).chunkIndex else none

namespace Go
open Library

namespace GuestSend

/-- The C++ sender with the same payload and buffers. It cuts the payload alike. -/
def asHost (P : GuestSend) : SendCall :=
  ⟨1, P.bufLen, P.inFlight, -1, P.data, P.streamID.toNat, P.appMsgType.toNat⟩

variable {P : GuestSend}

theorem sized (hroom : chunkHeaderSize < P.bufLen) (hsize : P.data.length ≤ MaxStreamSize) :
    P.asHost.Sized :=
  ⟨hroom, hsize, P.streamID.toNat_lt, P.appMsgType.toNat_lt⟩

theorem startMsg_eq : P.startMsg = P.asHost.startMsg := by
  have htotal : P.totalChunks % 2 ^ 32 = P.asHost.totalChunks := by
    change (if P.data.length > 0 then blockCount P.data.length P.maxPayload else 0) % 2 ^ 32 =
      if P.data.length = 0 then 0 else blockCount P.data.length P.maxPayload % 2 ^ 32
    by_cases hlen : P.data.length = 0
    · rw [if_pos hlen, if_neg (by omega), Nat.zero_mod]
    · rw [if_neg hlen, if_pos (by omega)]
  rw [startMsg, htotal]
  rfl

theorem sendChunk_eq (hP : P.asHost.Sized) (i : Nat) (hi : i < P.asHost.totalChunks) :
    P.sendChunk i (i * P.maxPayload) = some (P.asHost.chunk i) := by
  have hlt : i * P.maxPayload < P.data.length := (hP.lt_totalChunks i).mp hi
  have hroom : chunkHeaderSize < P.bufLen := hP.room
  have hsize : P.data.length ≤ 2 ^ 30 := hP.size
  have hend : P.blockEnd (i * P.maxPayload) - i * P.maxPayload =
      min P.maxPayload (P.data.length - i * P.maxPayload) := by
    rw [blockEnd]
    split
    · omega
    · omega
  have hpayload : P.payload (i * P.maxPayload) = P.asHost.blocks i := by
    change (P.data.drop (i * P.maxPayload)).take _ =
      (P.data.drop (i * P.maxPayload)).take P.maxPayload
    rw [hend, List.take_eq_take_iff, List.length_drop]
    omega
  have hlen : (P.asHost.blocks i).length ≤ P.maxPayload := by
    rw [SendCall.blocks, length_block]
    exact Nat.min_le_left _ _
  have hshort : (P.asHost.blocks i).length ≤ P.data.length := by
    rw [SendCall.blocks, length_block]
    exact Nat.le_trans (Nat.min_le_right _ _) (Nat.sub_le _ _)
  have hfits : ¬ P.bufLen < chunkHeaderSize + (P.asHost.blocks i).length := by
    simp only [maxPayload] at hlen
    omega
  rw [hP.chunk_eq i hi, sendChunk, hpayload, if_neg hfits, Nat.mod_eq_of_lt (by omega),
    Nat.mod_eq_of_lt (by omega)]
  rfl

/-- Where block `i` starts; the end of the data once there are no more blocks. -/
def offsetOf (P : GuestSend) (i : Nat) : Nat := min (i * P.maxPayload) P.data.length

theorem offsetOf_lt (hP : P.asHost.Sized) (i : Nat) :
    P.offsetOf i < P.data.length ↔ i < P.asHost.totalChunks := by
  rw [hP.lt_totalChunks i, offsetOf]
  change _ ↔ i * P.maxPayload < P.data.length
  omega

theorem offsetOf_eq (hP : P.asHost.Sized) (i : Nat) (hi : i < P.asHost.totalChunks) :
    P.offsetOf i = i * P.maxPayload := by
  have hlt : i * P.maxPayload < P.data.length := (hP.lt_totalChunks i).mp hi
  rw [offsetOf]
  omega

theorem blockEnd_eq (hP : P.asHost.Sized) (i : Nat) (hi : i < P.asHost.totalChunks) :
    P.blockEnd (i * P.maxPayload) = P.offsetOf (i + 1) := by
  have hlt : i * P.maxPayload < P.data.length := (hP.lt_totalChunks i).mp hi
  rw [blockEnd, offsetOf, Nat.add_mul, Nat.one_mul]
  split
  · omega
  · omega

end GuestSend

def ChunkPc.slot : ChunkPc → Option Nat
  | .launched slot _ | .waiting slot | .sent slot => some slot
  | .unborn | .released | .tokenBack | .finished => none

def ChunkPc.isFinished : ChunkPc → Bool
  | .finished => true
  | _ => false

namespace GuestSendState

def processed (s : GuestSendState) : List Nat := s.exchanges.filterMap Exchange.chunkIndex

def unfinished (s : GuestSendState) (k : Nat) : Nat :=
  (List.range k).countP fun i => !(s.chunks i).isFinished

def ChunkInv (P : GuestSend) (s : GuestSendState) (i : Nat) : ChunkPc → Prop
  | .unborn => i ∉ s.processed
  | .launched slot offset =>
    offset = i * P.maxPayload ∧ s.slots slot = .held ∧ i ∉ s.processed
  | .waiting slot =>
    (s.slots slot = .published .streamChunk (P.asHost.chunk i) ∧ i ∉ s.processed) ∨
      ∃ reply, s.slots slot = .answered reply ∧ i ∈ s.processed
  | .sent slot => s.slots slot = .held ∧ i ∈ s.processed
  | .released | .tokenBack | .finished => i ∈ s.processed

/-- The goroutines of the chunks below `k` have been launched. -/
structure Piped (P : GuestSend) (s : GuestSendState) (k : Nat) : Prop where
  started : s.exchanges ≠ []
  le : k ≤ P.asHost.totalChunks
  unborn : ∀ i, s.chunks i = .unborn ↔ k ≤ i
  each : ∀ i, ChunkInv P s i (s.chunks i)
  taken : ∀ slot, s.slots slot ≠ .free → ∃ i, (s.chunks i).slot = some slot
  single : ∀ i j slot, (s.chunks i).slot = some slot → (s.chunks j).slot = some slot → i = j

/-- `extra` is 1 while the calling goroutine has added a chunk to the wait group that it
has not launched. -/
structure PipedAt (P : GuestSend) (s : GuestSendState) (k extra : Nat) : Prop where
  piped : Piped P s k
  waits : s.wg = s.unfinished k + extra

/-- No goroutine has been launched, and no slot but `slot` is in use. -/
structure Alone (s : GuestSendState) (slot : Nat) : Prop where
  unborn : ∀ i, s.chunks i = .unborn
  free : ∀ x, x ≠ slot → s.slots x = .free
  waits : s.wg = 0

structure Idle (s : GuestSendState) : Prop where
  unborn : ∀ i, s.chunks i = .unborn
  free : ∀ x, s.slots x = .free
  waits : s.wg = 0

/-- The chunks below `idx` have been sent one by one. -/
structure Lined (P : GuestSend) (s : GuestSendState) (idx : Nat) : Prop where
  started : s.exchanges ≠ []
  le : idx ≤ P.asHost.totalChunks
  processed : ∀ i, i ∈ s.processed ↔ i < idx

/-- The call is over; what it left behind. -/
structure Over (P : GuestSend) (s : GuestSendState) (error : Option SendError) : Prop where
  chunks : ∀ i, s.chunks i = .unborn ∨ s.chunks i = .finished
  free : ∀ x, s.slots x = .free
  sent : error = none → s.exchanges ≠ [] ∧ ∀ i, i < P.asHost.totalChunks → i ∈ s.processed

def InvAt (P : GuestSend) (s : GuestSendState) : MainPc → Prop
  | .enter => Idle s ∧ s.exchanges = []
  | .acquireStart => Idle s ∧ s.exchanges = [] ∧ P.data.length ≤ MaxStreamSize
  | .startWait slot => P.asHost.Sized ∧ Alone s slot ∧
      ((s.slots slot = .published .streamStart P.asHost.startMsg ∧ s.exchanges = []) ∨
        ∃ reply, s.slots slot = .answered reply ∧ s.exchanges ≠ [] ∧ s.processed = [])
  | .inline idx offset => P.asHost.Sized ∧ Idle s ∧ Lined P s idx ∧ offset = P.offsetOf idx
  | .inlineWait slot idx offset => P.asHost.Sized ∧ Alone s slot ∧
      idx < P.asHost.totalChunks ∧ offset = idx * P.maxPayload ∧
      ((s.slots slot = .published .streamChunk (P.asHost.chunk idx) ∧ Lined P s idx) ∨
        ∃ reply, s.slots slot = .answered reply ∧ Lined P s (idx + 1))
  | .top idx offset => P.asHost.Sized ∧ PipedAt P s idx 0 ∧ offset = P.offsetOf idx
  | .token idx offset => P.asHost.Sized ∧ PipedAt P s idx 0 ∧ idx < P.asHost.totalChunks ∧
      offset = idx * P.maxPayload
  | .acquire idx offset => P.asHost.Sized ∧ PipedAt P s idx 1 ∧ idx < P.asHost.totalChunks ∧
      offset = idx * P.maxPayload
  | .join error => P.asHost.Sized ∧ ∃ k, PipedAt P s k 0 ∧
      (error = none → k = P.asHost.totalChunks)
  | .returned error => Over P s error

def Inv (P : GuestSend) (s : GuestSendState) : Prop := InvAt P s s.main

variable {P : GuestSend} {s s' : GuestSendState}

theorem inv_start (cfg : Cpp.StreamReassemblerConfig) (events : List Cpp.Event) :
    Inv P (start cfg events) :=
  ⟨⟨fun _ => rfl, fun _ => rfl, rfl⟩, rfl⟩

theorem ChunkInv.congr {i : Nat} {pc : ChunkPc} (h : ChunkInv P s i pc)
    (hprocessed : i ∈ s'.processed ↔ i ∈ s.processed)
    (hslot : ∀ x, pc.slot = some x → s'.slots x = s.slots x) : ChunkInv P s' i pc := by
  cases pc with
  | unborn | released | tokenBack | finished =>
    simp only [ChunkInv, hprocessed] at h ⊢
    exact h
  | launched slot offset | waiting slot | sent slot =>
    simp only [ChunkInv, hprocessed, hslot slot rfl] at h ⊢
    exact h

theorem Piped.move {k idx : Nat} {pc : ChunkPc} (h : Piped P s k) (hidx : idx < k)
    (hstarted : s'.exchanges ≠ []) (hchunks : s'.chunks = Function.update s.chunks idx pc)
    (hpc : pc ≠ .unborn) (hprocessed : ∀ j, j ≠ idx → (j ∈ s'.processed ↔ j ∈ s.processed))
    (hslots : ∀ x, (s.chunks idx).slot ≠ some x → s'.slots x = s.slots x)
    (hslot : ∀ x, pc.slot = some x → (s.chunks idx).slot = some x)
    (hfree : ∀ x, (s.chunks idx).slot = some x → s'.slots x ≠ .free → pc.slot = some x)
    (heach : ChunkInv P s' idx pc) : Piped P s' k := by
  have hself : s'.chunks idx = pc := by rw [hchunks, Function.update_self]
  have hother : ∀ j, j ≠ idx → s'.chunks j = s.chunks j := by
    intro j hj
    rw [hchunks, Function.update_of_ne hj]
  have hback : ∀ j x, (s'.chunks j).slot = some x → (s.chunks j).slot = some x := by
    intro j x hx
    by_cases hj : j = idx
    · subst hj
      rw [hself] at hx
      exact hslot x hx
    · rw [hother j hj] at hx
      exact hx
  refine ⟨hstarted, h.le, ?_, ?_, ?_, ?_⟩
  · intro i
    by_cases hi : i = idx
    · subst hi
      rw [hself]
      exact ⟨fun heq => absurd heq hpc, fun hle => by omega⟩
    · rw [hother i hi]
      exact h.unborn i
  · intro i
    by_cases hi : i = idx
    · subst hi
      rw [hself]
      exact heach
    · rw [hother i hi]
      refine (h.each i).congr (hprocessed i hi) ?_
      intro x hx
      exact hslots x fun heq => hi (h.single i idx x hx heq)
  · intro x hx
    by_cases hown : (s.chunks idx).slot = some x
    · exact ⟨idx, by rw [hself]; exact hfree x hown hx⟩
    · rw [hslots x hown] at hx
      obtain ⟨i, hi⟩ := h.taken x hx
      have hne : i ≠ idx := fun heq => hown (heq ▸ hi)
      exact ⟨i, by rw [hother i hne]; exact hi⟩
  · intro i j x hi hj
    exact h.single i j x (hback i x hi) (hback j x hj)

theorem unfinished_update {k idx : Nat} (pc : ChunkPc) (hidx : idx < k)
    (hchunks : s'.chunks = Function.update s.chunks idx pc) :
    s'.unfinished k + (if !(s.chunks idx).isFinished then 1 else 0) =
      s.unfinished k + (if !pc.isFinished then 1 else 0) := by
  simp only [unfinished, hchunks]
  exact countP_update_of_mem (List.range k) (fun pc : ChunkPc => !pc.isFinished) s.chunks idx pc
    List.nodup_range (List.mem_range.mpr hidx)

theorem PipedAt.move {k extra idx : Nat} {pc : ChunkPc} (h : PipedAt P s k extra) (hidx : idx < k)
    (hexchanges : s'.exchanges = s.exchanges)
    (hchunks : s'.chunks = Function.update s.chunks idx pc) (hpc : pc ≠ .unborn)
    (hbefore : (s.chunks idx).isFinished = false) (hafter : pc.isFinished = false)
    (hslots : ∀ x, (s.chunks idx).slot ≠ some x → s'.slots x = s.slots x)
    (hslot : ∀ x, pc.slot = some x → (s.chunks idx).slot = some x)
    (hfree : ∀ x, (s.chunks idx).slot = some x → s'.slots x ≠ .free → pc.slot = some x)
    (heach : ChunkInv P s' idx pc) (hwg : s'.wg = s.wg) : PipedAt P s' k extra := by
  refine ⟨h.piped.move hidx (by rw [hexchanges]; exact h.piped.started) hchunks hpc ?_ hslots
    hslot hfree heach, ?_⟩
  · intro j _
    rw [processed, hexchanges, processed]
  · have hcount := unfinished_update pc hidx hchunks
    have hwaits := h.waits
    simp only [hbefore, hafter, Bool.not_false, if_true] at hcount
    omega

/-- What the sender's own steps leave alone. -/
structure Untouched (s s' : GuestSendState) : Prop where
  exchanges : s'.exchanges = s.exchanges
  host : s'.host = s.host
  delivered : s'.delivered = s.delivered

theorem pipedAt_chunkStep {k extra idx : Nat} (hP : P.asHost.Sized) (h : PipedAt P s k extra)
    (hstep : s.chunkStep P idx = some s') :
    PipedAt P s' k extra ∧ s'.main = s.main ∧ Untouched s s' := by
  have hborn : s.chunks idx ≠ .unborn → idx < k := by
    intro hne
    by_contra hle
    exact hne ((h.piped.unborn idx).mpr (by omega))
  have heach := h.piped.each idx
  have hoff : ∀ (slot : Nat) (u : GuestSlotUse) (x : Nat), (some slot : Option Nat) ≠ some x →
      Function.update s.slots slot u x = s.slots x := by
    intro slot u x hx
    exact Function.update_of_ne (fun heq => hx (congrArg some heq.symm)) _ _
  have hgo := chunkGoes_of_step hstep
  generalize hpc : s.chunks idx = pc at heach hborn hgo
  have hmoved : ∀ (slot : Nat) (reply : MsgType), pc = .waiting slot →
      s.slots slot = .answered reply → ∀ t : GuestSendState, t.exchanges = s.exchanges →
      t.chunks = Function.update s.chunks idx (.sent slot) →
      t.slots = Function.update s.slots slot .held → t.wg = s.wg → PipedAt P t k extra := by
    rintro slot reply rfl hans t hexchanges hchunks hslots hwg
    refine h.move (hborn (by intro heq; cases heq)) hexchanges hchunks (by intro heq; cases heq)
      (by rw [hpc]; rfl) rfl ?_ ?_ ?_ ?_ hwg
    · rw [hpc, hslots]
      exact hoff slot _
    · rw [hpc]
      exact fun x hx => hx
    · rw [hpc]
      exact fun x hx _ => hx
    · refine ⟨by rw [hslots, Function.update_self], ?_⟩
      rw [processed, hexchanges]
      rcases heach with ⟨hpub, -⟩ | ⟨_, -, hmem⟩
      · rw [hpub] at hans
        cases hans
      · exact hmem
  cases hgo with
  | publish slot offset msg hmsg =>
    obtain ⟨rfl, hheld, hnew⟩ := heach
    have hidx := hborn (by intro heq; cases heq)
    have hle := h.piped.le
    rw [GuestSend.sendChunk_eq hP idx (by omega)] at hmsg
    cases hmsg
    refine ⟨h.move hidx rfl rfl (by intro heq; cases heq) (by rw [hpc]; rfl) rfl ?_ ?_ ?_ ?_ rfl,
      rfl, rfl, rfl, rfl⟩
    · rw [hpc]
      exact hoff slot _
    · rw [hpc]
      exact fun x hx => hx
    · rw [hpc]
      exact fun x hx _ => hx
    · exact Or.inl ⟨Function.update_self _ _ _, hnew⟩
  | tooLong slot offset hmsg =>
    have hidx := hborn (by intro heq; cases heq)
    have hle := h.piped.le
    rw [heach.1, GuestSend.sendChunk_eq hP idx (by omega)] at hmsg
    cases hmsg
  | rejected slot reply e hans he =>
    exact ⟨hmoved slot reply rfl hans _ rfl rfl rfl rfl, rfl, rfl, rfl, rfl⟩
  | accepted slot reply hans he =>
    exact ⟨hmoved slot reply rfl hans _ rfl rfl rfl rfl, rfl, rfl, rfl, rfl⟩
  | release slot =>
    have hidx := hborn (by intro heq; cases heq)
    refine ⟨h.move hidx rfl rfl (by intro heq; cases heq) (by rw [hpc]; rfl) rfl ?_
      (by intro x hx; cases hx) ?_ heach.2 rfl, rfl, rfl, rfl, rfl⟩
    · rw [hpc]
      exact hoff slot _
    · rw [hpc]
      intro x hx hused
      cases hx
      exact absurd (Function.update_self _ _ _) hused
  | giveBack =>
    have hidx := hborn (by intro heq; cases heq)
    refine ⟨h.move hidx rfl rfl (by intro heq; cases heq) (by rw [hpc]; rfl) rfl
      (fun _ _ => rfl) (by intro x hx; cases hx) ?_ heach rfl, rfl, rfl, rfl, rfl⟩
    rw [hpc]
    intro x hx
    cases hx
  | done =>
    have hidx := hborn (by intro heq; cases heq)
    have hcount : ({ s.setChunk idx .finished with wg := s.wg - 1 } : GuestSendState).unfinished k
        + _ = _ := unfinished_update .finished hidx rfl
    rw [hpc] at hcount
    simp only [ChunkPc.isFinished, Bool.not_false, Bool.not_true, if_true, Bool.false_eq_true,
      if_false] at hcount
    have hwaits := h.waits
    refine ⟨⟨?_, ?_⟩, rfl, rfl, rfl, rfl⟩
    · refine h.piped.move hidx h.piped.started rfl (by intro heq; cases heq) (fun _ _ => Iff.rfl)
        (fun _ _ => rfl) (by intro x hx; cases hx) ?_ heach
      rw [hpc]
      intro x hx
      cases hx
    · simp only
      omega

section Work

theorem Piped.published {k slot : Nat} {m : MsgType} {req : List UInt8} (h : Piped P s k)
    (hpub : s.slots slot = .published m req) :
    ∃ i, i < k ∧ s.chunks i = .waiting slot ∧ m = .streamChunk ∧ req = P.asHost.chunk i ∧
      i ∉ s.processed := by
  obtain ⟨i, hi⟩ := h.taken slot (by rw [hpub]; intro heq; cases heq)
  have heach := h.each i
  cases hpc : s.chunks i with
  | unborn | released | tokenBack | finished => rw [hpc] at hi; cases hi
  | launched x offset =>
    rw [hpc] at hi heach
    cases hi
    exact absurd (hpub.symm.trans heach.2.1) (by intro heq; cases heq)
  | sent x =>
    rw [hpc] at hi heach
    cases hi
    exact absurd (hpub.symm.trans heach.1) (by intro heq; cases heq)
  | waiting x =>
    rw [hpc] at hi heach
    cases hi
    rcases heach with ⟨hsame, hnew⟩ | ⟨reply, hans, -⟩
    · rw [hpub] at hsame
      cases hsame
      have hborn : ¬ k ≤ i := by rw [← h.unborn i, hpc]; intro heq; cases heq
      exact ⟨i, by omega, hpc, rfl, rfl, hnew⟩
    · rw [hpub] at hans
      cases hans

theorem Inv.published {slot : Nat} {m : MsgType} {req : List UInt8} (h : Inv P s)
    (hpub : s.slots slot = .published m req) :
    P.asHost.Sized ∧ ((m = .streamStart ∧ req = P.asHost.startMsg ∧ s.exchanges = []) ∨
      ∃ i, i < P.asHost.totalChunks ∧ m = .streamChunk ∧ req = P.asHost.chunk i ∧
        s.exchanges ≠ [] ∧ i ∉ s.processed) := by
  have hidle : ¬ s.slots slot = .free := by rw [hpub]; intro heq; cases heq
  have hpiped : ∀ k, Piped P s k → ∃ i, i < P.asHost.totalChunks ∧ m = .streamChunk ∧
      req = P.asHost.chunk i ∧ s.exchanges ≠ [] ∧ i ∉ s.processed := by
    intro k hk
    obtain ⟨i, hi, -, hm, hreq, hnew⟩ := hk.published hpub
    exact ⟨i, Nat.lt_of_lt_of_le hi hk.le, hm, hreq, hk.started, hnew⟩
  rw [Inv] at h
  cases hmain : s.main with
  | enter | acquireStart => rw [hmain] at h; exact absurd (h.1.free slot) hidle
  | inline idx offset => rw [hmain] at h; exact absurd (h.2.1.free slot) hidle
  | returned error => rw [hmain] at h; exact absurd (h.free slot) hidle
  | startWait x =>
    rw [hmain] at h
    obtain ⟨hP, halone, hcase⟩ := h
    have hx : slot = x := by
      by_contra hne
      exact hidle (halone.free slot hne)
    subst hx
    rcases hcase with ⟨hsame, hnone⟩ | ⟨reply, hans, -⟩
    · rw [hpub] at hsame
      cases hsame
      exact ⟨hP, Or.inl ⟨rfl, rfl, hnone⟩⟩
    · rw [hpub] at hans
      cases hans
  | inlineWait x idx offset =>
    rw [hmain] at h
    obtain ⟨hP, halone, hidx, -, hcase⟩ := h
    have hx : slot = x := by
      by_contra hne
      exact hidle (halone.free slot hne)
    subst hx
    rcases hcase with ⟨hsame, hlined⟩ | ⟨reply, hans, -⟩
    · rw [hpub] at hsame
      cases hsame
      refine ⟨hP, Or.inr ⟨idx, hidx, rfl, rfl, hlined.started, ?_⟩⟩
      rw [hlined.processed]
      omega
    · rw [hpub] at hans
      cases hans
  | top idx offset => rw [hmain] at h; exact ⟨h.1, Or.inr (hpiped idx h.2.1.piped)⟩
  | token idx offset => rw [hmain] at h; exact ⟨h.1, Or.inr (hpiped idx h.2.1.piped)⟩
  | acquire idx offset => rw [hmain] at h; exact ⟨h.1, Or.inr (hpiped idx h.2.1.piped)⟩
  | join error =>
    rw [hmain] at h
    obtain ⟨hP, k, hk, -⟩ := h
    exact ⟨hP, Or.inr (hpiped k hk.piped)⟩

theorem length_chunk_le (hP : P.asHost.Sized) (i : Nat) (hi : i < P.asHost.totalChunks) :
    (P.asHost.chunk i).length ≤ P.bufLen := by
  have hroom : chunkHeaderSize < P.bufLen := hP.room
  have hlen : (P.asHost.blocks i).length ≤ P.bufLen - chunkHeaderSize := by
    rw [SendCall.blocks, length_block]
    exact Nat.min_le_left _ _
  rw [hP.chunk_eq i hi, List.length_append, length_putChunkHeader]
  omega

/-- The host has run `Handle` on a request and published its response: the type in the
slot is still that of the request. -/
def handled (s : GuestSendState) (slot : Nat) (env : Cpp.Surroundings) (m : MsgType)
    (req : List UInt8) : GuestSendState :=
  { s.setSlot slot (.answered m) with
    host := (s.host.handle env m req).1
    exchanges := s.exchanges ++ [⟨m, req, (s.host.handle env m req).2⟩]
    delivered := s.delivered ++ ((s.host.handle env m req).2.bind Answer.delivered).toList }

theorem work_eq_handled {slot : Nat} {m : MsgType} {req : List UInt8} (h : Inv P s)
    (hpub : s.slots slot = .published m req) (env : Cpp.Surroundings) :
    s.work P slot env = some (s.handled slot env m req) := by
  have hlen : ¬ req.length > P.bufLen := by
    obtain ⟨hP, hcase⟩ := h.published hpub
    rcases hcase with ⟨-, rfl, -⟩ | ⟨i, hi, -, rfl, -, -⟩
    · have hroom : chunkHeaderSize < P.bufLen := hP.room
      have hstart : P.asHost.startMsg.length = streamHeaderSize := length_putStreamHeader _
      simp only [chunkHeaderSize, streamHeaderSize] at hroom hstart
      omega
    · exact Nat.not_lt.mpr (length_chunk_le hP i hi)
  simp only [work, hpub, Cpp.processGuestCall, if_neg hlen, Cpp.guestCallHandler, Int.natAbs_zero,
    gt_iff_lt, Nat.not_lt_zero, if_false]
  rfl

theorem handled_of_work {slot : Nat} {env : Cpp.Surroundings} (h : Inv P s)
    (hstep : s.work P slot env = some s') :
    ∃ m req, s.slots slot = .published m req ∧ s' = s.handled slot env m req := by
  cases hslot : s.slots slot with
  | free | held | answered => simp [work, hslot] at hstep
  | published m req =>
    rw [work_eq_handled h hslot env, Option.some.injEq] at hstep
    exact ⟨m, req, rfl, hstep.symm⟩

theorem processed_handled_start (slot : Nat) (env : Cpp.Surroundings) (req : List UInt8) :
    (s.handled slot env .streamStart req).processed = s.processed := by
  simp [processed, handled, Exchange.chunkIndex]

theorem processed_handled_chunk (hP : P.asHost.Sized) (slot : Nat) (env : Cpp.Surroundings)
    (i : Nat) (hi : i < P.asHost.totalChunks) :
    (s.handled slot env .streamChunk (P.asHost.chunk i)).processed = s.processed ++ [i] := by
  simp [processed, handled, Exchange.chunkIndex, hP.parse_chunk i hi]

theorem mem_processed_of_ne (hP : P.asHost.Sized) (slot : Nat) (env : Cpp.Surroundings) {i j : Nat}
    (hi : i < P.asHost.totalChunks) (hj : j ≠ i) :
    j ∈ (s.handled slot env .streamChunk (P.asHost.chunk i)).processed ↔ j ∈ s.processed := by
  rw [processed_handled_chunk hP slot env i hi, List.mem_append, List.mem_singleton]
  exact ⟨fun h => h.resolve_right hj, Or.inl⟩

theorem pipedAt_handled {k extra slot : Nat} {m : MsgType} {req : List UInt8}
    (hP : P.asHost.Sized) (h : PipedAt P s k extra) (hpub : s.slots slot = .published m req)
    (env : Cpp.Surroundings) : PipedAt P (s.handled slot env m req) k extra := by
  obtain ⟨i, hi, hpc, rfl, rfl, hnew⟩ := h.piped.published hpub
  have hn : i < P.asHost.totalChunks := Nat.lt_of_lt_of_le hi h.piped.le
  refine ⟨h.piped.move hi (by simp [handled]) (Function.update_eq_self_iff.mpr hpc.symm).symm
    (by intro heq; cases heq) (fun j hj => mem_processed_of_ne hP slot env hn hj) ?_ ?_ ?_ ?_,
    h.waits⟩
  · rw [hpc]
    intro x hx
    exact Function.update_of_ne (fun heq => hx (congrArg some heq.symm)) _ _
  · rw [hpc]
    exact fun x hx => hx
  · rw [hpc]
    exact fun x hx _ => hx
  · refine Or.inr ⟨.streamChunk, Function.update_self _ _ _, ?_⟩
    rw [processed_handled_chunk hP slot env i hn]
    exact List.mem_append_right _ List.mem_cons_self

end Work

end GuestSendState

end Go

end ShmIpc.Stream
