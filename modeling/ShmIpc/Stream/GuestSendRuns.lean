import ShmIpc.Stream.GuestSendInvariant

/-!
Runs of a guest sender. Each step keeps the account of where the chunks are; as long as
the host rejects no message, its side of the stream agrees with that account, so a call
that returns without an error has been delivered.
-/

namespace ShmIpc.Stream.Go.GuestSendState
open Library

variable {P : GuestSend} {s s' : GuestSendState}

section Steps

theorem inv_chunkStep {idx : Nat} (h : Inv P s) (hstep : s.chunkStep P idx = some s') :
    Inv P s' ∧ s'.main = s.main ∧ Untouched s s' := by
  have hstill : ∀ pc, s.chunks idx = pc → pc = .unborn ∨ pc = .finished → False := by
    intro pc hpc hcase
    have hgo := chunkGoes_of_step hstep
    rw [hpc] at hgo
    rcases hcase with rfl | rfl
    · cases hgo
    · cases hgo
  rw [Inv] at h
  have hpiped : ∀ k extra, P.asHost.Sized → PipedAt P s k extra →
      PipedAt P s' k extra ∧ s'.main = s.main ∧ Untouched s s' :=
    fun k extra hP hk => pipedAt_chunkStep hP hk hstep
  cases hmain : s.main with
  | enter | acquireStart => rw [hmain] at h; exact (hstill _ (h.1.unborn idx) (Or.inl rfl)).elim
  | startWait | inline | inlineWait =>
    rw [hmain] at h
    exact (hstill _ (h.2.1.unborn idx) (Or.inl rfl)).elim
  | returned error => rw [hmain] at h; exact (hstill _ rfl (h.chunks idx)).elim
  | top idx' offset | token idx' offset =>
    rw [hmain] at h
    obtain ⟨hk, hsame, huntouched⟩ := hpiped idx' 0 h.1 h.2.1
    refine ⟨?_, hsame.trans hmain, huntouched⟩
    rw [Inv, hsame, hmain]
    exact ⟨h.1, hk, h.2.2⟩
  | acquire idx' offset =>
    rw [hmain] at h
    obtain ⟨hk, hsame, huntouched⟩ := hpiped idx' 1 h.1 h.2.1
    refine ⟨?_, hsame.trans hmain, huntouched⟩
    rw [Inv, hsame, hmain]
    exact ⟨h.1, hk, h.2.2⟩
  | join error =>
    rw [hmain] at h
    obtain ⟨hP, k, hat, hall⟩ := h
    obtain ⟨hk, hsame, huntouched⟩ := hpiped k 0 hP hat
    refine ⟨?_, hsame.trans hmain, huntouched⟩
    rw [Inv, hsame, hmain]
    exact ⟨hP, k, hk, hall⟩

theorem inv_handled {slot : Nat} {m : MsgType} {req : List UInt8} (h : Inv P s)
    (hpub : s.slots slot = .published m req) (env : Cpp.Surroundings) :
    Inv P (s.handled slot env m req) := by
  have hused : ∀ x, s.slots slot = .free → x := by
    intro x hfree
    rw [hpub] at hfree
    cases hfree
  rw [Inv] at h
  change InvAt P (s.handled slot env m req) s.main
  cases hmain : s.main with
  | enter | acquireStart => rw [hmain] at h; exact hused _ (h.1.free slot)
  | inline idx offset => rw [hmain] at h; exact hused _ (h.2.1.free slot)
  | returned error => rw [hmain] at h; exact hused _ (h.free slot)
  | startWait x =>
    rw [hmain] at h
    obtain ⟨hP, halone, hcase⟩ := h
    have hx : slot = x := by
      by_contra hne
      exact hused _ (halone.free slot hne)
    subst hx
    rcases hcase with ⟨hsame, hnone⟩ | ⟨reply, hans, -⟩
    · rw [hpub] at hsame
      cases hsame
      refine ⟨hP, ⟨halone.unborn, ?_, halone.waits⟩, Or.inr ⟨_, Function.update_self _ _ _,
        by simp [handled], ?_⟩⟩
      · intro x hx
        exact (Function.update_of_ne hx _ _).trans (halone.free x hx)
      · rw [processed_handled_start, processed, hnone]
        rfl
    · rw [hpub] at hans
      cases hans
  | inlineWait x idx offset =>
    rw [hmain] at h
    obtain ⟨hP, halone, hidx, hoffset, hcase⟩ := h
    have hx : slot = x := by
      by_contra hne
      exact hused _ (halone.free slot hne)
    subst hx
    rcases hcase with ⟨hsame, hlined⟩ | ⟨reply, hans, -⟩
    · rw [hpub] at hsame
      cases hsame
      refine ⟨hP, ⟨halone.unborn, ?_, halone.waits⟩, hidx, hoffset,
        Or.inr ⟨_, Function.update_self _ _ _, by simp [handled], hidx, ?_⟩⟩
      · intro x hx
        exact (Function.update_of_ne hx _ _).trans (halone.free x hx)
      · intro i
        rw [processed_handled_chunk hP slot env idx hidx, List.mem_append, List.mem_singleton,
          hlined.processed]
        omega
    · rw [hpub] at hans
      cases hans
  | top idx offset => rw [hmain] at h; exact ⟨h.1, pipedAt_handled h.1 h.2.1 hpub env, h.2.2⟩
  | token idx offset => rw [hmain] at h; exact ⟨h.1, pipedAt_handled h.1 h.2.1 hpub env, h.2.2⟩
  | acquire idx offset => rw [hmain] at h; exact ⟨h.1, pipedAt_handled h.1 h.2.1 hpub env, h.2.2⟩
  | join error =>
    rw [hmain] at h
    obtain ⟨hP, k, hat, hall⟩ := h
    exact ⟨hP, k, pipedAt_handled hP hat hpub env, hall⟩

theorem over_of_joined {k : Nat} {error : Option SendError} (hk : PipedAt P s k 0) (hwg : s.wg = 0)
    (hall : error = none → k = P.asHost.totalChunks) : Over P s error := by
  have hdone : ∀ i, i < k → s.chunks i = .finished := by
    intro i hi
    have hcount : s.unfinished k = 0 := by
      have hwaits := hk.waits
      omega
    have hzero := List.countP_eq_zero.mp hcount i (List.mem_range.mpr hi)
    cases hpc : s.chunks i with
    | unborn | launched | waiting | sent | released | tokenBack =>
      simp [hpc, ChunkPc.isFinished] at hzero
    | finished => rfl
  have hchunks : ∀ i, s.chunks i = .unborn ∨ s.chunks i = .finished := by
    intro i
    by_cases hi : i < k
    · exact Or.inr (hdone i hi)
    · exact Or.inl ((hk.piped.unborn i).mpr (by omega))
  refine ⟨hchunks, ?_, ?_⟩
  · intro x
    by_contra hused
    obtain ⟨i, hi⟩ := hk.piped.taken x hused
    rcases hchunks i with hpc | hpc
    · rw [hpc] at hi
      cases hi
    · rw [hpc] at hi
      cases hi
  · intro hnone
    refine ⟨hk.piped.started, ?_⟩
    intro i hi
    have heach := hk.piped.each i
    rw [hdone i (by rw [hall hnone]; exact hi)] at heach
    exact heach

theorem Idle.congr (h : Idle s) (hchunks : s'.chunks = s.chunks) (hslots : s'.slots = s.slots)
    (hwg : s'.wg = s.wg) : Idle s' :=
  ⟨by rw [hchunks]; exact h.unborn, by rw [hslots]; exact h.free, by rw [hwg]; exact h.waits⟩

theorem Lined.congr {idx : Nat} (h : Lined P s idx) (hexchanges : s'.exchanges = s.exchanges) :
    Lined P s' idx := by
  refine ⟨by rw [hexchanges]; exact h.started, h.le, ?_⟩
  rw [GuestSendState.processed, hexchanges]
  exact h.processed

theorem Over.congr {error : Option SendError} (h : Over P s error) (hchunks : s'.chunks = s.chunks)
    (hslots : s'.slots = s.slots) (hexchanges : s'.exchanges = s.exchanges) : Over P s' error := by
  refine ⟨by rw [hchunks]; exact h.chunks, by rw [hslots]; exact h.free, ?_⟩
  rw [processed, hexchanges]
  exact h.sent

theorem Piped.congr {k : Nat} (h : Piped P s k) (hchunks : s'.chunks = s.chunks)
    (hslots : s'.slots = s.slots) (hexchanges : s'.exchanges = s.exchanges) : Piped P s' k := by
  refine ⟨by rw [hexchanges]; exact h.started, h.le, by rw [hchunks]; exact h.unborn, ?_,
    by rw [hchunks, hslots]; exact h.taken, by rw [hchunks]; exact h.single⟩
  intro i
  rw [hchunks]
  refine (h.each i).congr ?_ (fun x _ => by rw [hslots])
  rw [processed, hexchanges, processed]

theorem PipedAt.congr {k extra : Nat} (h : PipedAt P s k extra) (hchunks : s'.chunks = s.chunks)
    (hslots : s'.slots = s.slots) (hexchanges : s'.exchanges = s.exchanges) (hwg : s'.wg = s.wg) :
    PipedAt P s' k extra := by
  refine ⟨h.piped.congr hchunks hslots hexchanges, ?_⟩
  rw [hwg, unfinished, hchunks]
  exact h.waits

theorem Alone.idle {slot : Nat} (h : Alone s slot) :
    Idle (s.setSlot slot .free) := by
  refine ⟨h.unborn, ?_, h.waits⟩
  intro x
  by_cases hx : x = slot
  · subst hx
    exact Function.update_self _ _ _
  · exact (Function.update_of_ne hx _ _).trans (h.free x hx)

theorem Idle.alone (h : Idle s) (slot : Nat) (u : GuestSlotUse) : Alone (s.setSlot slot u) slot :=
  ⟨h.unborn, fun x hx => (Function.update_of_ne hx _ _).trans (h.free x), h.waits⟩

theorem Idle.over (h : Idle s) {error : Option SendError}
    (hsent : error = none → s.exchanges ≠ [] ∧ ∀ i, i < P.asHost.totalChunks → i ∈ s.processed) :
    Over P s error :=
  ⟨fun i => Or.inl (h.unborn i), h.free, hsent⟩

theorem Idle.failed (h : Idle s) (e : SendError) : Over P s (some e) :=
  h.over (by intro heq; cases heq)

theorem Idle.pipedAt (h : Idle s) (hstarted : s.exchanges ≠ []) (hnone : s.processed = []) :
    PipedAt P s 0 0 := by
  refine ⟨⟨hstarted, Nat.zero_le _, ?_, ?_, ?_, ?_⟩, h.waits⟩
  · intro i
    exact ⟨fun _ => Nat.zero_le i, fun _ => h.unborn i⟩
  · intro i
    rw [h.unborn i]
    simp [ChunkInv, hnone]
  · intro x hx
    exact absurd (h.free x) hx
  · intro i j x hi
    rw [h.unborn i] at hi
    cases hi

theorem totalChunks_eq_zero (hP : P.asHost.Sized) (hlen : P.data.length = 0) :
    P.asHost.totalChunks = 0 := by
  by_contra hne
  have hlt := (hP.lt_totalChunks 0).mp (by omega)
  rw [Nat.zero_mul] at hlt
  exact absurd hlt (by rw [show P.asHost.data = P.data from rfl]; omega)

theorem answered_of_cases {slot : Nat} {m : MsgType} {req : List UInt8} {reply : MsgType}
    {p q : Prop} (h : s.slots slot = .published m req ∧ p ∨
      ∃ reply, s.slots slot = .answered reply ∧ q)
    (hans : s.slots slot = .answered reply) : q := by
  rcases h with ⟨hpub, -⟩ | ⟨_, -, hq⟩
  · rw [hpub] at hans
    cases hans
  · exact hq

theorem inv_mainStep (h : Inv P s) (hstep : s.mainStep P = some s') :
    Inv P s' ∧ Untouched s s' := by
  have hgo := mainGoes_of_step hstep
  rw [Inv] at h
  generalize s.main = pc at h hgo
  cases hgo with
  | tooLarge hlarge => exact ⟨(Idle.failed h.1 _).congr rfl rfl rfl, rfl, rfl, rfl⟩
  | enter hsize => exact ⟨⟨h.1.congr rfl rfl rfl, h.2, by omega⟩, rfl, rfl, rfl⟩
  | startFailed slot reply e hans he =>
    exact ⟨(Idle.failed h.2.1.idle _).congr rfl rfl rfl, rfl, rfl, rfl⟩
  | startOnly slot reply hans he hempty =>
    obtain ⟨hP, halone, hcase⟩ := h
    obtain ⟨hstarted, -⟩ := answered_of_cases hcase hans
    refine ⟨(Idle.over halone.idle fun _ => ⟨hstarted, ?_⟩).congr rfl rfl rfl, rfl, rfl, rfl⟩
    intro i hi
    rw [totalChunks_eq_zero hP hempty] at hi
    exact absurd hi (Nat.not_lt_zero i)
  | startInline slot reply hans he hdata hone =>
    obtain ⟨hP, halone, hcase⟩ := h
    obtain ⟨hstarted, hnone⟩ := answered_of_cases hcase hans
    refine ⟨⟨hP, halone.idle.congr rfl rfl rfl, ⟨hstarted, Nat.zero_le _, ?_⟩, ?_⟩, rfl, rfl,
      rfl⟩
    · intro i
      change i ∈ s.processed ↔ _
      rw [hnone]
      simp
    · rw [GuestSend.offsetOf, Nat.zero_mul, Nat.zero_min]
  | startPipelined slot reply hans he hdata hmany =>
    obtain ⟨hP, halone, hcase⟩ := h
    obtain ⟨hstarted, hnone⟩ := answered_of_cases hcase hans
    refine ⟨⟨hP, (Idle.pipedAt halone.idle hstarted hnone).congr rfl rfl rfl rfl, ?_⟩, rfl, rfl,
      rfl⟩
    rw [GuestSend.offsetOf, Nat.zero_mul, Nat.zero_min]
  | inlineEnd idx offset hend =>
    obtain ⟨hP, hidle, hlined, rfl⟩ := h
    refine ⟨(Idle.over hidle fun _ => ⟨hlined.started, ?_⟩).congr rfl rfl rfl, rfl, rfl, rfl⟩
    intro i hi
    rw [GuestSend.offsetOf_lt hP] at hend
    exact (hlined.processed i).mpr (by omega)
  | inlineFailed slot idx offset reply e hans he =>
    exact ⟨(Idle.failed h.2.1.idle _).congr rfl rfl rfl, rfl, rfl, rfl⟩
  | inlineNext slot idx offset reply hans he =>
    obtain ⟨hP, halone, hidx, rfl, hcase⟩ := h
    have hlined := answered_of_cases hcase hans
    have hn := hP.totalChunks_le
    have hwrap : (idx + 1) % 2 ^ 32 = idx + 1 := Nat.mod_eq_of_lt (by omega)
    refine ⟨?_, rfl, rfl, rfl⟩
    change InvAt P _ (.inline ((idx + 1) % 2 ^ 32) _)
    rw [hwrap]
    exact ⟨hP, halone.idle.congr rfl rfl rfl, hlined.congr rfl, GuestSend.blockEnd_eq hP idx hidx⟩
  | stop idx offset e hmore he =>
    obtain ⟨hP, hat, rfl⟩ := h
    exact ⟨⟨hP, idx, hat.congr rfl rfl rfl rfl, by intro heq; cases heq⟩, rfl, rfl, rfl⟩
  | next idx offset hmore he =>
    obtain ⟨hP, hat, rfl⟩ := h
    rw [GuestSend.offsetOf_lt hP] at hmore
    exact ⟨⟨hP, hat.congr rfl rfl rfl rfl, hmore, GuestSend.offsetOf_eq hP idx hmore⟩, rfl, rfl,
      rfl⟩
  | last idx offset hend =>
    obtain ⟨hP, hat, rfl⟩ := h
    rw [GuestSend.offsetOf_lt hP] at hend
    refine ⟨⟨hP, idx, hat.congr rfl rfl rfl rfl, fun _ => ?_⟩, rfl, rfl, rfl⟩
    have hle := hat.piped.le
    omega
  | token idx offset hsem =>
    obtain ⟨hP, hat, hidx, rfl⟩ := h
    refine ⟨⟨hP, ⟨hat.piped.congr rfl rfl rfl, ?_⟩, hidx, rfl⟩, rfl, rfl, rfl⟩
    exact congrArg (· + 1) hat.waits
  | join error hwg =>
    obtain ⟨hP, k, hat, hall⟩ := h
    refine ⟨(over_of_joined hat hwg ?_).congr rfl rfl rfl, rfl, rfl, rfl⟩
    intro hnone
    exact hall (Option.or_eq_none_iff.mp hnone).1

theorem Piped.unowned_of_free {k slot : Nat} (h : Piped P s k) (hfree : s.slots slot = .free)
    (i : Nat) : (s.chunks i).slot ≠ some slot := by
  intro hi
  have heach := h.each i
  cases hpc : s.chunks i with
  | unborn | released | tokenBack | finished => rw [hpc] at hi; cases hi
  | launched x offset =>
    rw [hpc] at hi heach
    cases hi
    exact absurd (hfree.symm.trans heach.2.1) (by intro heq; cases heq)
  | sent x =>
    rw [hpc] at hi heach
    cases hi
    exact absurd (hfree.symm.trans heach.1) (by intro heq; cases heq)
  | waiting x =>
    rw [hpc] at hi heach
    cases hi
    rcases heach with ⟨hpub, -⟩ | ⟨reply, hans, -⟩
    · exact absurd (hfree.symm.trans hpub) (by intro heq; cases heq)
    · exact absurd (hfree.symm.trans hans) (by intro heq; cases heq)

theorem pipedAt_launch {k slot : Nat} (h : PipedAt P s k 1) (hk : k < P.asHost.totalChunks)
    (hfree : s.slots slot = .free)
    (hchunks : s'.chunks = Function.update s.chunks k (.launched slot (k * P.maxPayload)))
    (hslots : s'.slots = Function.update s.slots slot .held)
    (hexchanges : s'.exchanges = s.exchanges) (hwg : s'.wg = s.wg) : PipedAt P s' (k + 1) 0 := by
  have hunborn : s.chunks k = .unborn := (h.piped.unborn k).mpr (Nat.le_refl k)
  have hself : s'.chunks k = .launched slot (k * P.maxPayload) := by
    rw [hchunks, Function.update_self]
  have hother : ∀ i, i ≠ k → s'.chunks i = s.chunks i := by
    intro i hi
    rw [hchunks, Function.update_of_ne hi]
  have hprocessed : s'.processed = s.processed := by rw [processed, hexchanges, processed]
  have hunowned := h.piped.unowned_of_free hfree
  refine ⟨⟨by rw [hexchanges]; exact h.piped.started, hk, ?_, ?_, ?_, ?_⟩, ?_⟩
  · intro i
    by_cases hi : i = k
    · subst hi
      rw [hself]
      exact ⟨(by intro heq; cases heq), fun hle => by omega⟩
    · rw [hother i hi, h.piped.unborn i]
      omega
  · intro i
    by_cases hi : i = k
    · subst hi
      have hnew := h.piped.each i
      rw [hunborn] at hnew
      rw [hself]
      exact ⟨rfl, by rw [hslots, Function.update_self], by rw [hprocessed]; exact hnew⟩
    · rw [hother i hi]
      refine (h.piped.each i).congr (by rw [hprocessed]) ?_
      intro x hx
      have hne : x ≠ slot := fun heq => hunowned i (heq ▸ hx)
      rw [hslots, Function.update_of_ne hne]
  · intro x hx
    by_cases hne : x = slot
    · exact ⟨k, by rw [hself, hne]; rfl⟩
    · rw [hslots, Function.update_of_ne hne] at hx
      obtain ⟨i, hi⟩ := h.piped.taken x hx
      have hik : i ≠ k := by
        rintro rfl
        rw [hunborn] at hi
        cases hi
      exact ⟨i, by rw [hother i hik]; exact hi⟩
  · intro i j x hi hj
    by_cases hik : i = k
    · by_cases hjk : j = k
      · rw [hik, hjk]
      · rw [hik, hself] at hi
        cases hi
        rw [hother j hjk] at hj
        exact absurd hj (hunowned j)
    · rw [hother i hik] at hi
      by_cases hjk : j = k
      · rw [hjk, hself] at hj
        cases hj
        exact absurd hi (hunowned i)
      · rw [hother j hjk] at hj
        exact h.piped.single i j x hi hj
  · have hcount := countP_update_of_notMem (List.range k) (fun pc : ChunkPc => !pc.isFinished)
      s.chunks k (.launched slot (k * P.maxPayload)) (by simp)
    have hlast : s'.unfinished (k + 1) = s.unfinished k + 1 := by
      simp only [unfinished, List.range_succ, List.countP_append, List.countP_singleton, hself,
        ChunkPc.isFinished, Bool.not_false, if_true]
      rw [hchunks]
      exact congrArg (· + 1) hcount
    rw [hwg, h.waits, hlast]

theorem inv_acquire {slot : Nat} (h : Inv P s) (hstep : s.acquire P slot = some s') :
    Inv P s' ∧ Untouched s s' := by
  obtain ⟨hfree, htakes⟩ := mainTakes_of_acquire hstep
  rw [Inv] at h
  generalize s.main = pc at h htakes
  cases htakes with
  | noStreamHeader | noChunkHeader =>
    exact ⟨(Idle.failed h.1 _).congr rfl rfl rfl, rfl, rfl, rfl⟩
  | start hstream hroom =>
    obtain ⟨hidle, hnone, hsize⟩ := h
    have halone := hidle.alone slot (.published .streamStart P.startMsg)
    refine ⟨⟨GuestSend.sized hroom hsize, ⟨halone.unborn, halone.free, halone.waits⟩,
      Or.inl ⟨?_, hnone⟩⟩, rfl, rfl, rfl⟩
    rw [← GuestSend.startMsg_eq]
    exact Function.update_self _ _ _
  | inline idx offset msg hmore hmsg =>
    obtain ⟨hP, hidle, hlined, rfl⟩ := h
    rw [GuestSend.offsetOf_lt hP] at hmore
    rw [GuestSend.offsetOf_eq hP idx hmore, GuestSend.sendChunk_eq hP idx hmore] at hmsg
    cases hmsg
    have halone := hidle.alone slot (.published .streamChunk (P.asHost.chunk idx))
    exact ⟨⟨hP, ⟨halone.unborn, halone.free, halone.waits⟩, hmore,
      GuestSend.offsetOf_eq hP idx hmore, Or.inl ⟨Function.update_self _ _ _,
        hlined.congr rfl⟩⟩, rfl, rfl, rfl⟩
  | inlineTooLong idx offset hmore hmsg =>
    obtain ⟨hP, hidle, hlined, rfl⟩ := h
    rw [GuestSend.offsetOf_lt hP] at hmore
    rw [GuestSend.offsetOf_eq hP idx hmore, GuestSend.sendChunk_eq hP idx hmore] at hmsg
    cases hmsg
  | launch idx offset =>
    obtain ⟨hP, hat, hidx, rfl⟩ := h
    have hn := hP.totalChunks_le
    have hnext : (idx + 1) % 2 ^ 32 = idx + 1 := Nat.mod_eq_of_lt (by omega)
    rw [hnext, GuestSend.blockEnd_eq hP idx hidx]
    exact ⟨⟨hP, pipedAt_launch hat hidx hfree rfl rfl rfl rfl, rfl⟩, rfl, rfl, rfl⟩

theorem inv_leave {idx offset : Nat} (h : Inv P s) (hmain : s.main = .acquire idx offset)
    (e : SendError) (errChan : Option SendError) :
    Inv P { s.leave e with errChan := errChan } := by
  rw [Inv, hmain] at h
  obtain ⟨hP, hat, -, -⟩ := h
  refine ⟨hP, idx, ⟨hat.piped.congr rfl rfl rfl, ?_⟩, by intro heq; cases heq⟩
  have hwaits := hat.waits
  change s.wg - 1 = s.unfinished idx + 0
  omega

theorem inv_givesUp (h : Inv P s) (hgo : MainGivesUp P s s.main s') :
    Inv P s' ∧ Untouched s s' := by
  generalize hmain : s.main = pc at hgo
  cases hgo with
  | start =>
    rw [Inv, hmain] at h
    exact ⟨(Idle.failed h.1 _).congr rfl rfl rfl, rfl, rfl, rfl⟩
  | inline idx offset hmore =>
    rw [Inv, hmain] at h
    exact ⟨(Idle.failed h.2.1 _).congr rfl rfl rfl, rfl, rfl, rfl⟩
  | leave idx offset e errChan => exact ⟨inv_leave h hmain e errChan, rfl, rfl, rfl⟩

end Steps

section Runs

/-- A call of another sender into the host's reassembler. -/
structure Elsewhere (P : GuestSend) (s s' : GuestSendState) (event : Cpp.Event) : Prop where
  main : s'.main = s.main
  chunks : s'.chunks = s.chunks
  slots : s'.slots = s.slots
  wg : s'.wg = s.wg
  exchanges : s'.exchanges = s.exchanges
  host : s'.host = (s.host.apply event).1
  delivered : ∃ more, s'.delivered = s.delivered ++ more
  addressed : ∀ x ∈ (s.host.apply event).2,
    SendState.addressedTo P.streamID.toNat x.msgType x.req = false

theorem other_elsewhere {event : Cpp.Event} (hstep : s.other P event = some s') :
    Elsewhere P s s' event := by
  simp only [other] at hstep
  split at hstep
  · cases hstep
  · next haddressed =>
      cases hstep
      refine ⟨rfl, rfl, rfl, rfl, rfl, rfl, ⟨_, rfl⟩, ?_⟩
      intro x hx
      by_contra hyes
      exact haddressed (List.any_eq_true.mpr ⟨x, hx, by simpa using hyes⟩)

theorem Elsewhere.inv {event : Cpp.Event} (he : Elsewhere P s s' event) (h : Inv P s) :
    Inv P s' := by
  rw [Inv] at h
  rw [Inv, he.main]
  have hprocessed : s'.processed = s.processed := by rw [processed, he.exchanges, processed]
  have halone : ∀ slot, Alone s slot → Alone s' slot := fun slot h =>
    ⟨by rw [he.chunks]; exact h.unborn, by rw [he.slots]; exact h.free, he.wg.trans h.waits⟩
  have hat : ∀ k extra, PipedAt P s k extra → PipedAt P s' k extra := fun k extra hk =>
    hk.congr he.chunks he.slots he.exchanges he.wg
  cases hmain : s.main with
  | enter =>
    rw [hmain] at h
    exact ⟨h.1.congr he.chunks he.slots he.wg, he.exchanges.trans h.2⟩
  | acquireStart =>
    rw [hmain] at h
    exact ⟨h.1.congr he.chunks he.slots he.wg, he.exchanges.trans h.2.1, h.2.2⟩
  | startWait slot =>
    rw [hmain] at h
    refine ⟨h.1, halone slot h.2.1, ?_⟩
    rw [he.slots, he.exchanges, hprocessed]
    exact h.2.2
  | inline idx offset =>
    rw [hmain] at h
    exact ⟨h.1, h.2.1.congr he.chunks he.slots he.wg, h.2.2.1.congr he.exchanges, h.2.2.2⟩
  | inlineWait slot idx offset =>
    rw [hmain] at h
    obtain ⟨hP, hslot, hidx, hoffset, hcase⟩ := h
    refine ⟨hP, halone slot hslot, hidx, hoffset, ?_⟩
    rw [he.slots]
    rcases hcase with ⟨hpub, hlined⟩ | ⟨reply, hans, hlined⟩
    · exact Or.inl ⟨hpub, hlined.congr he.exchanges⟩
    · exact Or.inr ⟨reply, hans, hlined.congr he.exchanges⟩
  | top idx offset => rw [hmain] at h; exact ⟨h.1, hat _ _ h.2.1, h.2.2⟩
  | token idx offset => rw [hmain] at h; exact ⟨h.1, hat _ _ h.2.1, h.2.2⟩
  | acquire idx offset => rw [hmain] at h; exact ⟨h.1, hat _ _ h.2.1, h.2.2⟩
  | join error =>
    rw [hmain] at h
    obtain ⟨hP, k, hk, hall⟩ := h
    exact ⟨hP, k, hat _ _ hk, hall⟩
  | returned error => rw [hmain] at h; exact h.congr he.chunks he.slots he.exchanges

/-- Everything a step can do to the host. -/
inductive HostChange (P : GuestSend) (s : GuestSendState) : GuestSendAction → GuestSendState → Prop
  | own (a : GuestSendAction) (s' : GuestSendState) (h : Untouched s s') : HostChange P s a s'
  | handled (slot : Nat) (env : Cpp.Surroundings) (m : MsgType) (req : List UInt8)
      (hpub : s.slots slot = .published m req) :
      HostChange P s (.work slot env) (s.handled slot env m req)
  | elsewhere (event : Cpp.Event) (s' : GuestSendState) (h : Elsewhere P s s' event) :
      HostChange P s (.other event) s'

theorem inv_step {a : GuestSendAction} (h : Inv P s) (hstep : s.step P a = some s') :
    Inv P s' ∧ HostChange P s a s' := by
  cases a with
  | main =>
    obtain ⟨hinv, hown⟩ := inv_mainStep h hstep
    exact ⟨hinv, .own _ _ hown⟩
  | acquire slot =>
    obtain ⟨hinv, hown⟩ := inv_acquire h hstep
    exact ⟨hinv, .own _ _ hown⟩
  | acquireTimeout =>
    obtain ⟨hinv, hown⟩ := inv_givesUp h (givesUp_of_timeout hstep)
    exact ⟨hinv, .own _ _ hown⟩
  | abort =>
    obtain ⟨hinv, hown⟩ := inv_givesUp h (givesUp_of_abort P hstep)
    exact ⟨hinv, .own _ _ hown⟩
  | chunk idx =>
    obtain ⟨hinv, -, hown⟩ := inv_chunkStep h hstep
    exact ⟨hinv, .own _ _ hown⟩
  | work slot env =>
    obtain ⟨m, req, hslot, rfl⟩ := handled_of_work h hstep
    exact ⟨inv_handled h hslot env, .handled slot env m req hslot⟩
  | other event =>
    have helsewhere := other_elsewhere hstep
    exact ⟨helsewhere.inv h, .elsewhere event s' helsewhere⟩

/-- `Handle` has rejected none of the messages of the stream. -/
def Clean (s : GuestSendState) : Prop :=
  ∀ x ∈ s.exchanges, x.answer.map Answer.reply ≠ some .systemError

/-- The host, and its side of the stream unless it rejected a message. -/
structure HostInv (P : GuestSend) (cfg : Cpp.StreamReassemblerConfig) (s : GuestSendState) :
    Prop where
  config : s.host.config = cfg.clamp
  side : Clean s → s.exchanges ≠ [] →
    HostSide P.asHost (· ∈ s.processed) s.host s.delivered

theorem hostInv_handled {cfg : Cpp.StreamReassemblerConfig} {slot : Nat} {m : MsgType}
    {req : List UInt8} (h : Inv P s) (hs : HostInv P cfg s)
    (hpub : s.slots slot = .published m req) (env : Cpp.Surroundings) :
    HostInv P cfg (s.handled slot env m req) := by
  have hsize : s.host.config.maxStreamSize ≤ 2 ^ 30 := by
    rw [hs.config]
    exact Cpp.StreamReassembler.clamp_maxStreamSize cfg
  refine ⟨(Cpp.StreamReassembler.handle_step s.host env m req hsize).2.trans hs.config, ?_⟩
  intro hclean _
  have hbefore : Clean s := fun x hx => hclean x (List.mem_append_left _ hx)
  have hreply := hclean _ (List.mem_append_right s.exchanges List.mem_cons_self)
  obtain ⟨hP, hcase⟩ := h.published hpub
  rcases hcase with ⟨rfl, rfl, hnone⟩ | ⟨i, hi, rfl, rfl, hstarted, hnew⟩
  · have hran : ∀ i, i ∉ (s.handled slot env .streamStart P.asHost.startMsg).processed := by
      intro i
      rw [processed_handled_start, processed, hnone]
      simp
    simp only [hran]
    simp only [handled, Cpp.StreamReassembler.handle_streamStart, Option.map_some,
      Option.bind_some] at hreply ⊢
    exact hostSide_start hP s.host env s.delivered hsize fun herr => hreply (congrArg some herr)
  · have hran : ∀ j, j ∈ (s.handled slot env .streamChunk (P.asHost.chunk i)).processed ↔
        j ∈ s.processed ∨ j = i := by
      intro j
      rw [processed_handled_chunk hP slot env i hi, List.mem_append, List.mem_singleton]
    simp only [hran]
    simp only [handled, Cpp.StreamReassembler.handle_streamChunk, Option.map_some,
      Option.bind_some] at hreply ⊢
    exact hostSide_chunk hP (hs.side hbefore hstarted) env hi hnew fun herr =>
      hreply (congrArg some herr)

theorem hostInv_step {cfg : Cpp.StreamReassemblerConfig} {a : GuestSendAction} (h : Inv P s)
    (hs : HostInv P cfg s) (hchange : HostChange P s a s') : HostInv P cfg s' := by
  cases hchange with
  | own a s' hown =>
    refine ⟨by rw [hown.host]; exact hs.config, ?_⟩
    rw [Clean, processed, hown.exchanges, hown.host, hown.delivered]
    exact hs.side
  | handled slot env m req hpub => exact hostInv_handled h hs hpub env
  | elsewhere event s' he =>
    have hsize : s.host.config.maxStreamSize ≤ 2 ^ 30 := by
      rw [hs.config]
      exact Cpp.StreamReassembler.clamp_maxStreamSize cfg
    obtain ⟨more, hmore⟩ := he.delivered
    refine ⟨?_, ?_⟩
    · rw [he.host, ← hs.config]
      cases event with
      | message env m req => exact (Cpp.StreamReassembler.handle_step s.host env m req hsize).2
      | prune now => rfl
    · rw [Clean, processed, he.exchanges, he.host, hmore]
      intro hclean hstarted
      exact hostSide_other (hs.side hclean hstarted) event hsize more he.addressed

theorem inv_reachable {cfg : Cpp.StreamReassemblerConfig} {events : List Cpp.Event}
    {guard : GuestSendState → GuestSendAction → Prop}
    (hs : Reachable (step P) guard (start cfg events) s) : Inv P s ∧ HostInv P cfg s := by
  induction hs with
  | start =>
    refine ⟨inv_start cfg events, (Cpp.StreamReassembler.history_run cfg events).2, ?_⟩
    intro _ hstarted
    exact absurd rfl hstarted
  | step s s' a _ _ hstep ih =>
    obtain ⟨hinv, hchange⟩ := inv_step ih.1 hstep
    exact ⟨hinv, hostInv_step ih.1 ih.2 hchange⟩

/-- A call that returns without an error, and none of whose messages was rejected, has
been delivered. -/
theorem delivered_of_returned {cfg : Cpp.StreamReassemblerConfig} (h : Inv P s)
    (hs : HostInv P cfg s) (hclean : Clean s) (hmain : s.main = .returned none) :
    P.asHost.wholeStream ∈ s.delivered := by
  rw [Inv, hmain] at h
  obtain ⟨hstarted, hall⟩ := h.sent rfl
  exact (hs.side hclean hstarted).complete hall

end Runs

end ShmIpc.Stream.Go.GuestSendState
