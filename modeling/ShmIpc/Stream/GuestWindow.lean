import ShmIpc.Stream.GuestSendRuns

/-!
How far ahead of its least missing chunk a pipelined guest sender runs. The semaphore
bounds how many chunk goroutines there are, not which: while one of them stalls, the
others can return their tokens and let the calling goroutine launch ever later chunks.
If tokens come back in the order of the chunks, the launched chunks that have theirs are
a window of at most `maxInFlight`.
-/

namespace ShmIpc.Stream.Go
open Library

/-- The goroutine still has the token that was taken for it. -/
def ChunkPc.hasToken : ChunkPc → Bool
  | .launched _ _ | .waiting _ | .sent _ | .released => true
  | .unborn | .tokenBack | .finished => false

namespace GuestSendState

def accepted (s : GuestSendState) : List Nat :=
  s.exchanges.filterMap fun x =>
    if x.answer.map Answer.reply = some .systemError then none else x.chunkIndex

/-- The host has accepted at most `maxInFlight - 1` chunks beyond the least one it has
not, and so never runs out of records for the next one. -/
structure WithinWindow (P : GuestSend) (s : GuestSendState) : Prop where
  ahead : ∀ low, (∀ i, i < low → i ∈ s.accepted) → low ∉ s.accepted →
    (s.accepted.filter fun i => low < i).length ≤ P.inFlight - 1
  room : P.inFlight ≤ s.host.config.maxParkedChunks + 1 → ∀ slot req c env,
    s.slots slot = .published .streamChunk req →
    s.host.streams.lookup P.streamID.toNat = some c → env.allocFails = false →
    (s.host.handle env .streamChunk req).2.map Answer.reply = some .normal

/-- A goroutine returns its token only when those of all lower chunks are back. -/
def InOrder (s : GuestSendState) : GuestSendAction → Prop
  | .chunk idx => s.chunks idx = .released → ∀ j, j < idx → (s.chunks j).hasToken = false
  | _ => True

variable {P : GuestSend} {s s' : GuestSendState}

theorem accepted_eq_processed (h : Clean s) : s.accepted = s.processed := by
  apply List.filterMap_congr
  intro x hx
  rw [if_neg (h x hx)]

/-- The tokens of the chunks below `low` are back; those of the others launched are out,
and `extra` counts the one taken for the chunk about to be launched. -/
structure Fifo (P : GuestSend) (s : GuestSendState) (k extra low : Nat) : Prop where
  le : low ≤ k
  back : ∀ i, i < low → (s.chunks i).hasToken = false
  out : ∀ i, low ≤ i → i < k → (s.chunks i).hasToken = true
  count : s.sem + low = k + extra
  cap : s.sem ≤ P.inFlight

def TokenInv (P : GuestSend) (s : GuestSendState) : MainPc → Prop
  | .enter | .acquireStart | .startWait _ => s.sem = 0
  | .inline _ _ | .inlineWait _ _ _ | .returned _ => True
  | .top idx _ | .token idx _ => ∃ low, Fifo P s idx 0 low
  | .acquire idx _ => ∃ low, Fifo P s idx 1 low
  | .join _ => ∃ k low, (∀ i, s.chunks i = .unborn ↔ k ≤ i) ∧ Fifo P s k 0 low

/-- The chunks processed and those in the slots span at most a window. -/
def Spanned (P : GuestSend) (s : GuestSendState) : Prop :=
  ∃ low high, high ≤ low + P.inFlight ∧ (∀ i, i < low → i ∈ s.processed) ∧
    (∀ i ∈ s.processed, i < high) ∧ ∀ slot req, s.slots slot = .published .streamChunk req →
      (parseChunkHeader req).chunkIndex < high

theorem one_le_inFlight (P : GuestSend) : 1 ≤ P.inFlight := by
  rw [GuestSend.inFlight]
  split
  · exact Nat.le_refl 1
  · omega

theorem spanned_of_piped {k extra low : Nat} (hP : P.asHost.Sized) (h : Piped P s k)
    (hf : Fifo P s k extra low) : Spanned P s := by
  have hcount := hf.count
  have hcap := hf.cap
  refine ⟨low, k, by omega, ?_, ?_, ?_⟩
  · intro i hi
    have hback := hf.back i hi
    have heach := h.each i
    have hborn : s.chunks i ≠ .unborn := by
      have hle := hf.le
      rw [ne_eq, h.unborn i]
      omega
    cases hpc : s.chunks i with
    | unborn => exact absurd hpc hborn
    | launched | waiting | sent | released => rw [hpc] at hback; cases hback
    | tokenBack | finished => rw [hpc] at heach; exact heach
  · intro i hi
    by_contra hle
    have heach := h.each i
    rw [(h.unborn i).mpr (by omega)] at heach
    exact heach hi
  · intro slot req hpub
    obtain ⟨i, hi, -, -, rfl, -⟩ := h.published hpub
    rw [hP.parse_chunk i (Nat.lt_of_lt_of_le hi h.le)]
    exact hi

theorem spanned_of_unsent (hnone : s.processed = [])
    (hunpublished : ∀ slot req, s.slots slot ≠ .published .streamChunk req) : Spanned P s := by
  refine ⟨0, 0, Nat.zero_le _, fun i hi => absurd hi (Nat.not_lt_zero i), ?_, ?_⟩
  · rw [hnone]
    intro i hi
    cases hi
  · exact fun slot req hpub => absurd hpub (hunpublished slot req)

theorem spanned_of_inv (h : Inv P s) (ht : TokenInv P s s.main)
    (hover : ∀ error, s.main = .returned error → Spanned P s) : Spanned P s := by
  have hdepth := one_le_inFlight P
  have hnothing : s.exchanges = [] → (∀ slot, s.slots slot = .free) → Spanned P s := by
    intro hnone hfree
    refine spanned_of_unsent (by rw [processed, hnone]; rfl) ?_
    intro slot req hpub
    rw [hfree slot] at hpub
    cases hpub
  rw [Inv] at h
  cases hmain : s.main with
  | enter => rw [hmain] at h; exact hnothing h.2 h.1.free
  | acquireStart => rw [hmain] at h; exact hnothing h.2.1 h.1.free
  | startWait slot =>
    rw [hmain] at h
    obtain ⟨hP, halone, hcase⟩ := h
    have hnone : s.processed = [] := by
      rcases hcase with ⟨-, hnone⟩ | ⟨-, -, -, hnone⟩
      · rw [processed, hnone]
        rfl
      · exact hnone
    refine spanned_of_unsent hnone ?_
    intro x req hpub
    by_cases hx : x = slot
    · subst hx
      rcases hcase with ⟨hstart, -⟩ | ⟨reply, hans, -⟩
      · rw [hpub] at hstart
        cases hstart
      · rw [hpub] at hans
        cases hans
    · rw [halone.free x hx] at hpub
      cases hpub
  | inline idx offset =>
    rw [hmain] at h
    obtain ⟨hP, hidle, hlined, -⟩ := h
    refine ⟨idx, idx, by omega, fun i hi => (hlined.processed i).mpr hi,
      fun i hi => (hlined.processed i).mp hi, ?_⟩
    intro slot req hpub
    rw [hidle.free slot] at hpub
    cases hpub
  | inlineWait slot idx offset =>
    rw [hmain] at h
    obtain ⟨hP, halone, hidx, -, hcase⟩ := h
    have hslot : ∀ x req, s.slots x = .published .streamChunk req → x = slot := by
      intro x req hpub
      by_contra hx
      rw [halone.free x hx] at hpub
      cases hpub
    rcases hcase with ⟨hpub, hlined⟩ | ⟨reply, hans, hlined⟩
    · refine ⟨idx, idx + 1, by omega, fun i hi => (hlined.processed i).mpr hi, ?_, ?_⟩
      · intro i hi
        have hlt := (hlined.processed i).mp hi
        omega
      · intro x req hx
        rw [hslot x req hx, hpub] at hx
        cases hx
        rw [hP.parse_chunk idx hidx]
        exact Nat.lt_succ_self idx
    · refine ⟨idx + 1, idx + 1, by omega, fun i hi => (hlined.processed i).mpr hi,
        fun i hi => (hlined.processed i).mp hi, ?_⟩
      intro x req hx
      rw [hslot x req hx, hans] at hx
      cases hx
  | top idx offset | token idx offset | acquire idx offset =>
    rw [hmain] at h ht
    obtain ⟨low, hf⟩ := ht
    exact spanned_of_piped h.1 h.2.1.piped hf
  | join error =>
    rw [hmain] at h ht
    obtain ⟨hP, k, hat, -⟩ := h
    obtain ⟨k', low, hunborn, hf⟩ := ht
    have hle : k ≤ k' := by
      rw [← hat.piped.unborn k', hunborn k']
    have hge : k' ≤ k := by
      rw [← hunborn k, hat.piped.unborn k]
    have hsame : k' = k := Nat.le_antisymm hge hle
    subst hsame
    exact spanned_of_piped hP hat.piped hf
  | returned error => exact hover error hmain

section Steps

theorem Fifo.congr {k extra low : Nat} (h : Fifo P s k extra low)
    (hchunks : s'.chunks = s.chunks) (hsem : s'.sem = s.sem) : Fifo P s' k extra low :=
  ⟨h.le, by rw [hchunks]; exact h.back, by rw [hchunks]; exact h.out,
    by rw [hsem]; exact h.count, by rw [hsem]; exact h.cap⟩

theorem tokenInv_mainStep (h : Inv P s) (ht : TokenInv P s s.main)
    (hstep : s.mainStep P = some s') : TokenInv P s' s'.main := by
  have hgo := mainGoes_of_step hstep
  rw [Inv] at h
  generalize s.main = pc at h ht hgo
  cases hgo with
  | tooLarge | startFailed | startOnly | startInline | inlineEnd | inlineFailed | inlineNext
  | join => trivial
  | enter => exact ht
  | startPipelined slot reply hans he hdata hmany =>
    have hsem : s.sem = 0 := ht
    refine ⟨0, Nat.le_refl 0, fun i hi => absurd hi (Nat.not_lt_zero i),
      fun i _ hi => absurd hi (Nat.not_lt_zero i), ?_, ?_⟩
    · exact congrArg (· + 0) hsem
    · exact Nat.le_trans (Nat.le_of_eq hsem) (Nat.zero_le _)
  | stop idx | last idx =>
    obtain ⟨low, hf⟩ := ht
    exact ⟨idx, low, h.2.1.piped.unborn, hf.congr rfl rfl⟩
  | next idx =>
    obtain ⟨low, hf⟩ := ht
    exact ⟨low, hf.congr rfl rfl⟩
  | token idx offset hsem =>
    obtain ⟨low, hf⟩ := ht
    have hcount := hf.count
    refine ⟨low, hf.le, hf.back, hf.out, ?_, hsem⟩
    change s.sem + 1 + low = idx + 1
    omega

theorem tokenInv_acquire {slot : Nat} (h : Inv P s) (ht : TokenInv P s s.main)
    (hstep : s.acquire P slot = some s') : TokenInv P s' s'.main := by
  obtain ⟨-, htakes⟩ := mainTakes_of_acquire hstep
  rw [Inv] at h
  generalize s.main = pc at h ht htakes
  cases htakes with
  | noStreamHeader | noChunkHeader | inline | inlineTooLong => trivial
  | start => exact ht
  | launch idx offset =>
    obtain ⟨hP, hat, hidx, -⟩ := h
    obtain ⟨low, hf⟩ := ht
    have hn := hP.totalChunks_le
    have hnext : (idx + 1) % 2 ^ 32 = idx + 1 := Nat.mod_eq_of_lt (by omega)
    have hle := hf.le
    have hcount := hf.count
    rw [hnext]
    refine ⟨low, by omega, ?_, ?_, ?_, hf.cap⟩
    · intro i hi
      have hne : i ≠ idx := by omega
      exact (congrArg ChunkPc.hasToken (Function.update_of_ne hne _ _)).trans (hf.back i hi)
    · intro i hlow hi
      by_cases heq : i = idx
      · rw [heq]
        change (Function.update s.chunks idx (.launched slot offset) idx).hasToken = true
        rw [Function.update_self]
        rfl
      · exact (congrArg ChunkPc.hasToken (Function.update_of_ne heq _ _)).trans
          (hf.out i hlow (by omega))
    · change s.sem + low = idx + 1 + 0
      omega

theorem tokenInv_leave {idx offset : Nat} (h : Inv P s) (hmain : s.main = .acquire idx offset)
    (ht : TokenInv P s s.main) (e : SendError) (errChan : Option SendError) :
    TokenInv P { s.leave e with errChan := errChan } (.join (some e)) := by
  rw [Inv, hmain] at h
  rw [hmain] at ht
  obtain ⟨low, hf⟩ := ht
  have hcount := hf.count
  have hle := hf.le
  have hcap := hf.cap
  refine ⟨idx, low, h.2.1.piped.unborn, hf.le, hf.back, hf.out, ?_, ?_⟩
  · change s.sem - 1 + low = idx + 0
    omega
  · change s.sem - 1 ≤ P.inFlight
    omega

theorem tokenInv_givesUp (h : Inv P s) (ht : TokenInv P s s.main)
    (hgo : MainGivesUp P s s.main s') : TokenInv P s' s'.main := by
  generalize hmain : s.main = pc at hgo
  cases hgo with
  | start | inline => trivial
  | leave idx offset e errChan => exact tokenInv_leave h hmain ht e errChan

theorem chunkStep_token {idx : Nat} (hstep : s.chunkStep P idx = some s') :
    ∃ pc, s'.chunks = Function.update s.chunks idx pc ∧ s.chunks idx ≠ .unborn ∧ pc ≠ .unborn ∧
      ((pc.hasToken = (s.chunks idx).hasToken ∧ s'.sem = s.sem) ∨
        (s.chunks idx = .released ∧ pc = .tokenBack ∧ s'.sem = s.sem - 1)) := by
  have hgo := chunkGoes_of_step hstep
  generalize s.chunks idx = pc at hgo ⊢
  cases hgo with
  | publish | tooLong | rejected | accepted | release | done =>
    exact ⟨_, rfl, (by intro heq; cases heq), (by intro heq; cases heq), Or.inl ⟨rfl, rfl⟩⟩
  | giveBack =>
    exact ⟨_, rfl, (by intro heq; cases heq), (by intro heq; cases heq),
      Or.inr ⟨rfl, rfl, rfl⟩⟩

theorem fifo_chunkStep {k extra low idx : Nat} (hunborn : ∀ i, s.chunks i = .unborn ↔ k ≤ i)
    (hf : Fifo P s k extra low) (hguard : InOrder s (.chunk idx))
    (hstep : s.chunkStep P idx = some s') :
    (∀ i, s'.chunks i = .unborn ↔ k ≤ i) ∧ ∃ low', Fifo P s' k extra low' := by
  obtain ⟨pc, hchunks, hborn, hnew, htoken⟩ := chunkStep_token hstep
  have hidx : idx < k := by
    rw [ne_eq, hunborn idx] at hborn
    omega
  have hself : s'.chunks idx = pc := by rw [hchunks, Function.update_self]
  have hother : ∀ i, i ≠ idx → s'.chunks i = s.chunks i := by
    intro i hi
    rw [hchunks, Function.update_of_ne hi]
  constructor
  · intro i
    by_cases hi : i = idx
    · rw [hi, hself]
      exact ⟨fun heq => absurd heq hnew, fun hle => by omega⟩
    · rw [hother i hi, hunborn i]
  · rcases htoken with ⟨hsame, hsem⟩ | ⟨hreleased, rfl, hsem⟩
    · have htokens : ∀ i, (s'.chunks i).hasToken = (s.chunks i).hasToken := by
        intro i
        by_cases hi : i = idx
        · rw [hi, hself, hsame]
        · rw [hother i hi]
      refine ⟨low, hf.le, ?_, ?_, by rw [hsem]; exact hf.count, by rw [hsem]; exact hf.cap⟩
      · intro i hi
        rw [htokens i]
        exact hf.back i hi
      · intro i hlow hi
        rw [htokens i]
        exact hf.out i hlow hi
    · have hlow : idx = low := by
        by_contra hne
        rcases Nat.lt_or_gt_of_ne hne with hlt | hgt
        · have hback := hf.back idx hlt
          rw [hreleased] at hback
          cases hback
        · have hback := hguard hreleased low hgt
          rw [hf.out low (Nat.le_refl low) (by omega)] at hback
          cases hback
      subst hlow
      have hcount := hf.count
      have hcap := hf.cap
      refine ⟨idx + 1, by omega, ?_, ?_, by omega, by omega⟩
      · intro i hi
        by_cases heq : i = idx
        · rw [heq, hself]
          rfl
        · rw [hother i heq]
          exact hf.back i (by omega)
      · intro i hle hi
        rw [hother i (by omega)]
        exact hf.out i (by omega) hi

theorem tokenInv_chunkStep {idx : Nat} (h : Inv P s) (ht : TokenInv P s s.main)
    (hguard : InOrder s (.chunk idx)) (hstep : s.chunkStep P idx = some s') :
    TokenInv P s' s'.main := by
  have hborn := (chunkStep_token hstep).choose_spec.2.1
  rw [(inv_chunkStep h hstep).2.1]
  rw [Inv] at h
  cases hmain : s.main with
  | enter | acquireStart => rw [hmain] at h; exact absurd (h.1.unborn idx) hborn
  | startWait | inline | inlineWait => rw [hmain] at h; exact absurd (h.2.1.unborn idx) hborn
  | returned error => trivial
  | top idx' offset | token idx' offset | acquire idx' offset =>
    rw [hmain] at h ht
    obtain ⟨low, hf⟩ := ht
    exact (fifo_chunkStep h.2.1.piped.unborn hf hguard hstep).2
  | join error =>
    rw [hmain] at ht
    obtain ⟨k, low, hunborn, hf⟩ := ht
    obtain ⟨hunborn', low', hf'⟩ := fifo_chunkStep hunborn hf hguard hstep
    exact ⟨k, low', hunborn', hf'⟩

theorem TokenInv.congr {pc : MainPc} (h : TokenInv P s pc) (hchunks : s'.chunks = s.chunks)
    (hsem : s'.sem = s.sem) : TokenInv P s' pc := by
  cases pc with
  | enter | acquireStart | startWait => exact hsem.trans h
  | inline | inlineWait | returned => trivial
  | top | token | acquire =>
    obtain ⟨low, hf⟩ := h
    exact ⟨low, hf.congr hchunks hsem⟩
  | join error =>
    obtain ⟨k, low, hunborn, hf⟩ := h
    exact ⟨k, low, by rw [hchunks]; exact hunborn, hf.congr hchunks hsem⟩

theorem tokenInv_step {a : GuestSendAction} (h : Inv P s) (ht : TokenInv P s s.main)
    (hguard : InOrder s a) (hstep : s.step P a = some s') : TokenInv P s' s'.main := by
  cases a with
  | main => exact tokenInv_mainStep h ht hstep
  | acquire slot => exact tokenInv_acquire h ht hstep
  | acquireTimeout => exact tokenInv_givesUp h ht (givesUp_of_timeout hstep)
  | abort => exact tokenInv_givesUp h ht (givesUp_of_abort P hstep)
  | chunk idx => exact tokenInv_chunkStep h ht hguard hstep
  | work slot env =>
    obtain ⟨m, req, -, rfl⟩ := handled_of_work h hstep
    exact ht.congr rfl rfl
  | other event =>
    have he := other_elsewhere hstep
    rw [he.main]
    refine ht.congr he.chunks ?_
    simp only [step, other] at hstep
    split at hstep
    · cases hstep
    · cases hstep
      rfl

end Steps

section Runs

theorem spanned_of_returned {a : GuestSendAction} {error : Option SendError} (h : Inv P s)
    (h' : Inv P s') (hspan : Spanned P s) (hchange : HostChange P s a s')
    (hmain : s'.main = .returned error) : Spanned P s' := by
  rw [Inv, hmain] at h'
  have hexchanges : s'.exchanges = s.exchanges := by
    cases hchange with
    | own a s' hown => exact hown.exchanges
    | elsewhere event s' he => exact he.exchanges
    | handled slot env m req hpub =>
      have hsame : s.main = .returned error := hmain
      rw [Inv, hsame] at h
      rw [h.free slot] at hpub
      cases hpub
  obtain ⟨low, high, hwindow, hlow, hhigh, -⟩ := hspan
  refine ⟨low, high, hwindow, ?_, ?_, ?_⟩
  · rw [processed, hexchanges]
    exact hlow
  · rw [processed, hexchanges]
    exact hhigh
  · intro slot req hpub
    rw [h'.free slot] at hpub
    cases hpub

theorem nodup_processed {a : GuestSendAction} (h : Inv P s) (hnodup : s.processed.Nodup)
    (hchange : HostChange P s a s') : s'.processed.Nodup := by
  cases hchange with
  | own a s' hown => rw [processed, hown.exchanges]; exact hnodup
  | elsewhere event s' he => rw [processed, he.exchanges]; exact hnodup
  | handled slot env m req hpub =>
    obtain ⟨hP, hcase⟩ := h.published hpub
    rcases hcase with ⟨rfl, rfl, -⟩ | ⟨i, hi, rfl, rfl, -, hnew⟩
    · rw [processed_handled_start]
      exact hnodup
    · rw [processed_handled_chunk hP slot env i hi]
      exact List.nodup_append.mpr ⟨hnodup, List.nodup_singleton i, fun j hj j' hj' heq =>
        hnew (by rw [← List.mem_singleton.mp hj', ← heq]; exact hj)⟩

theorem spanned_reachable {cfg : Cpp.StreamReassemblerConfig} {events : List Cpp.Event}
    (hs : Reachable (step P) InOrder (start cfg events) s) :
    TokenInv P s s.main ∧ Spanned P s ∧ s.processed.Nodup := by
  induction hs with
  | start =>
    have ht : TokenInv P (start cfg events) (start cfg events).main := rfl
    exact ⟨ht, spanned_of_inv (inv_start cfg events) ht (by intro error heq; cases heq),
      List.nodup_nil⟩
  | step s s' a hs hguard hstep ih =>
    obtain ⟨ht, hspan, hnodup⟩ := ih
    have hinv := (inv_reachable hs).1
    obtain ⟨hinv', hchange⟩ := inv_step hinv hstep
    have ht' := tokenInv_step hinv ht hguard hstep
    exact ⟨ht', spanned_of_inv hinv' ht' (fun error hmain =>
      spanned_of_returned hinv hinv' hspan hchange hmain), nodup_processed hinv hnodup hchange⟩

theorem window_kept (P : GuestSend) (cfg : Cpp.StreamReassemblerConfig) (events : List Cpp.Event)
    (s : GuestSendState) (hs : Reachable (step P) InOrder (start cfg events) s)
    (hclean : Clean s) : WithinWindow P s := by
  obtain ⟨-, ⟨low, high, hwindow, hlow, hhigh, hslots⟩, hnodup⟩ := spanned_reachable hs
  obtain ⟨hinv, hhost⟩ := inv_reachable hs
  constructor
  · rw [accepted_eq_processed hclean]
    intro next _ hnext
    exact card_ahead_le s.processed hnodup hhigh hlow hwindow hnext
  · intro hdepth slot req c env hpub hlook halloc
    have hindex := hslots slot req hpub
    obtain ⟨hP, hcase⟩ := hinv.published hpub
    rcases hcase with ⟨hm, -, -⟩ | ⟨i, hi, -, rfl, hstarted, hnew⟩
    · cases hm
    · rw [hP.parse_chunk i hi] at hindex
      have hside := hhost.side hclean hstarted
      have hflight : s.host.inFlight P.asHost.streamId = some c.toStreamContext :=
        congrArg (Option.map Cpp.HostContext.toStreamContext) hlook
      obtain ⟨initial, W, hholds, -, -, hmem⟩ :=
        hside.partly (fun hall => hnew (hall i hi)) _ hflight
      have hroom := window_room hholds.live.tracks.distinct
        (fun j hj => hhigh j ((hmem j).mp hj)) (fun j hj => (hmem j).mpr (hlow j hj)) hwindow hdepth
        hindex (fun hj => hnew ((hmem i).mp hj)) hholds.live.tracks.seen
        (next_notMem hholds.live.tracks hholds.live.steady)
      rw [← count_ooo hholds.live.tracks hholds.live.steady] at hroom
      rw [Cpp.StreamReassembler.handle_streamChunk, Option.map_some,
        (host_chunk hP hside env hi hnew hflight (hroom.imp_right fun h => ⟨h, halloc⟩)).1]

end Runs

end GuestSendState

/-- Four bytes, one in each chunk, two chunks in flight. -/
def fourBytes : GuestSend := ⟨25, 0, 2, [1, 2, 3, 4], 7, 9⟩

/-- The start is answered, and the first two chunks are launched on the slots 0 and 1. -/
def twoLaunched : List GuestSendAction :=
  [.main, .acquire 0, .work 0 zeroHost, .main] ++
    [.main, .main, .acquire 0] ++ [.main, .main, .acquire 1]

/-- The goroutine on slot 1 runs to its end, and the next chunk takes its place. -/
def overtake (idx : Nat) : List GuestSendAction :=
  [.chunk idx, .work 1 zeroHost] ++ List.replicate 3 (.chunk idx) ++ [.main, .main, .acquire 1]

namespace GuestSendState

def keepsToken (s : GuestSendState) : GuestSendAction → Bool
  | .chunk idx => s.chunks idx ≠ .released
  | _ => true

theorem inOrder_of_keepsToken (s : GuestSendState) (a : GuestSendAction)
    (h : s.keepsToken a = true) : InOrder s a := by
  cases a with
  | chunk idx => exact fun hreleased => absurd hreleased (of_decide_eq_true h)
  | main | acquire | acquireTimeout | abort | work | other => trivial

/-- The second chunk arrives first and is parked. -/
theorem window_kept_twoLaunched :
    ∃ s : GuestSendState, s.accepted = [1] ∧ WithinWindow fourBytes s := by
  obtain ⟨s, hreach, htest⟩ := exists_reachable_of_exec (step fourBytes) InOrder (start {} [])
    keepsToken inOrder_of_keepsToken (twoLaunched ++ [.chunk 1, .work 1 zeroHost])
    (fun s => s.accepted = [1] ∧
      ∀ x ∈ s.exchanges, x.answer.map Answer.reply ≠ some .systemError) (by decide)
  obtain ⟨haccepted, hclean⟩ := of_decide_eq_true htest
  exact ⟨s, haccepted, window_kept fourBytes {} [] s hreach hclean⟩

/-- The goroutine of the first chunk stalls before it publishes; the three others go
through the second place in the window one after the other. -/
theorem window_overrun :
    ∃ s : GuestSendState, Reachable (step fourBytes) (fun _ _ => True) (start {} []) s ∧
      (∀ x ∈ s.exchanges, x.answer.map Answer.reply ≠ some .systemError) ∧ 0 ∉ s.accepted ∧
      fourBytes.inFlight - 1 < (s.accepted.filter fun i => 0 < i).length := by
  obtain ⟨s, hreach, htest⟩ := exists_reachable_of_run (step fourBytes) (start {} [])
    (twoLaunched ++ overtake 1 ++ overtake 2 ++ [.chunk 3, .work 1 zeroHost])
    (fun s => (∀ x ∈ s.exchanges, x.answer.map Answer.reply ≠ some .systemError) ∧
      s.accepted = [1, 2, 3]) (by decide)
  obtain ⟨hclean, haccepted⟩ := of_decide_eq_true htest
  exact ⟨s, hreach, hclean, by rw [haccepted]; decide, by rw [haccepted]; decide⟩

end GuestSendState

end ShmIpc.Stream.Go
