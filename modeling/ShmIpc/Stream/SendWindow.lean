import ShmIpc.Stream.SendAccount

/-!
The window of `StreamSender::Send`, on both sides. The sender's books say which chunks are
out; the guest's context of the stream has taken in exactly the chunks that it has
acknowledged, and since a chunk leaves the sender's window with its acknowledgement, what
the guest holds ahead of its cursor was in the window with the chunk at the cursor.
-/

namespace ShmIpc.Stream
open Library

/-- A context of stream `id` has taken in the chunks in `taken`. -/
def TakenIn (id : Nat) (taken : List Nat) (v : InFlight) : Prop :=
  ∀ c, v id = some c → ∃ initial W, Live initial W c ∧ ∀ i, i ∈ indices W ↔ i ∈ taken

section TakenIn

variable {id : Nat} {taken : List Nat} {v w : InFlight} {req : List UInt8}

theorem TakenIn.of_eq_or_none (h : TakenIn id taken v) (hw : w id = v id ∨ w id = none) :
    TakenIn id taken w := by
  intro c hc
  cases hw with
  | inl hsame => exact h c (hsame ▸ hc)
  | inr hgone =>
    rw [hgone] at hc
    cases hc

theorem TakenIn.start {answer : Option Answer} (h : TakenIn id [] v)
    (hstep : Step v ⟨.streamStart, req, answer⟩ w) (hid : (parseStreamHeader req).streamId = id) :
    TakenIn id [] w := by
  subst hid
  cases hstep with
  | ignored _ _ hstart => exact absurd rfl hstart
  | refused _ _ _ hw => exact h.of_eq_or_none (hw _)
  | empty => exact h
  | opened w' _ buf hbuf hsize hpos hw =>
    intro c hc
    rw [Function.update_self] at hc
    cases hc
    exact ⟨buf, [], live_fresh _ _ _ buf hbuf hsize (parseStreamHeader_inRange req).totalChunks
      hpos, fun i => Iff.rfl⟩

theorem TakenIn.chunk {answer : Option Answer} (h : TakenIn id taken v)
    (hstep : Step v ⟨.streamChunk, req, answer⟩ w) (hid : (parseChunkHeader req).streamId = id) :
    TakenIn id (if (answer.map Answer.reply).getD .normal = .systemError then taken
      else taken ++ [(parseChunkHeader req).chunkIndex]) w := by
  subst hid
  cases hstep with
  | ignored _ _ _ hchunk => exact absurd rfl hchunk
  | refused _ _ _ hw => exact h.of_eq_or_none (hw _)
  | repeated _ c d maxParked allocFails hc hd =>
    intro c' hc'
    obtain ⟨initial, W, hlive, hmem⟩ := h c' hc'
    rw [hc'] at hc
    cases hc
    have hseen := (mem_of_consume_duplicate hlive _ _ _ _ _ _ hd).2
    refine ⟨initial, W, hlive, fun i => ?_⟩
    rw [if_neg (by intro hreply; cases hreply), List.mem_append, List.mem_singleton, hmem]
    refine ⟨Or.inl, fun hi => ?_⟩
    cases hi with
    | inl hold => exact hold
    | inr hlast =>
      rw [hlast]
      exact (hmem _).mp hseen
  | accepted _ c d maxParked allocFails hc hindex hd =>
    intro c' hc'
    rw [Function.update_self] at hc'
    cases hc'
    obtain ⟨initial, W, hlive, hmem⟩ := h c hc
    obtain ⟨-, -, htracks, hsteady, hcases⟩ := tracks_consume hlive maxParked allocFails
      (chunkArrival req) hindex (length_chunkPayload_lt req) d _ hd (by simp) (by simp)
    have hnext : d.next < d.totalChunks := by
      cases hcases with
      | inl hgoes => exact hgoes.2
      | inr hends => cases hends.1
    refine ⟨initial, _, ⟨htracks, hsteady, hnext⟩, fun i => ?_⟩
    rw [if_neg (by intro hreply; cases hreply), indices_append, List.mem_append, hmem,
      List.mem_append]
    exact Iff.rfl
  | completed _ data c d maxParked allocFails hc hindex hd =>
    intro c' hc'
    rw [Function.update_self] at hc'
    cases hc'

theorem TakenIn.ahead {c : StreamContext} {low sent width : Nat} (h : TakenIn id taken v)
    (hc : v id = some c) (hsent : ∀ i ∈ taken, i < sent) (hlow : ∀ i, i < low → i ∈ taken)
    (hwindow : sent ≤ low + width) : count c.ooo ≤ width - 1 := by
  obtain ⟨initial, W, hlive, hmem⟩ := h c hc
  rw [count_ooo hlive.tracks hlive.steady]
  exact card_ahead_le (indices W) hlive.tracks.distinct
    (fun i hi => hsent i ((hmem i).mp hi)) (fun i hi => (hmem i).mpr (hlow i hi)) hwindow
    (next_notMem hlive.tracks hlive.steady)

end TakenIn

namespace SendLoop

/-- What a message in one of the slots can be. -/
inductive Sends (C : AnyCall) (sent : Nat) (log : SendLog) : MsgType → List UInt8 → Prop
  | abort : Sends C sent log .systemError []
  | start (hsized : C.call.Sized) (hsent : sent = 0) (htaken : log.taken = []) :
      Sends C sent log .streamStart C.call.startMsg
  | chunk (hsized : C.call.Sized) (index : Nat) (hindex : index < sent)
      (htotal : index < C.call.totalChunks) : Sends C sent log .streamChunk (C.call.chunk index)

theorem Sends.sized {C : AnyCall} {sent : Nat} {log : SendLog} {req : List UInt8}
    (h : Sends C sent log .streamChunk req) : C.call.Sized := by
  cases h with
  | chunk hsized => exact hsized

structure GuestSide (C : AnyCall) (s : SendState) (log : SendLog) : Prop where
  quiet : s.guest.Quiet
  takes : TakenIn C.streamId log.taken s.guest.inFlight
  sent : ∀ i ∈ log.taken, i < s.chunkIndex
  messages : ∀ slot m req, s.slots slot = .published m req ∨ s.slots slot = .abandoned m req →
    Sends C s.chunkIndex log m req

theorem isOpen_of_message {u : SlotUse} {m : MsgType} {req : List UInt8}
    (h : u = .published m req ∨ u = .abandoned m req) : u.isOpen = true := by
  cases h with
  | inl hpub =>
    rw [hpub]
    rfl
  | inr habandoned =>
    rw [habandoned]
    rfl

section Environment

variable {C : AnyCall} {s : SendState} {log : SendLog} {slot : Nat} {extra : List Nat}

theorem take_nil (log : SendLog) (hextra : extra = []) :
    { log with taken := log.taken ++ extra } = log := by
  rw [hextra, List.append_nil]

theorem Started.answer (h : Started C s slot) {slot' : Nat} {u : SlotUse}
    (hopen : (s.slots slot').isOpen = true)
    (hheld : (s.slots slot').isHeld = true → ∃ reply, u = .answered reply)
    (guest : Go.Reassembler) (delivered : List Delivery) :
    Started C { s.setSlot slot' u with guest := guest, delivered := delivered } slot := by
  obtain rfl : slot' = slot := by
    by_contra hne
    rw [h.idle slot' hne] at hopen
    cases hopen
  obtain ⟨reply, rfl⟩ := hheld h.held
  refine ⟨h.remaining, h.chunkIndex, h.rr, h.pendingSlots, h.valid, ?_, ?_⟩
  · simp only [SendState.setSlot, Function.update_self, SlotUse.isHeld]
  · intro other hne
    simp only [SendState.setSlot, Function.update_of_ne hne]
    exact h.idle other hne

theorem Account.take {sent : Nat} {queue : List Nat} (h : Account C sent queue log)
    (extra : List Nat) : Account C sent queue { log with taken := log.taken ++ extra } :=
  ⟨h.queue_le, h.unwaited, h.acquired, h.refused, h.cargo, h.published⟩

theorem Draining.take {sent : Nat} {queue : List Nat} (h : Draining C sent queue log)
    (extra : List Nat) : Draining C sent queue { log with taken := log.taken ++ extra } := by
  obtain ⟨low, hwindow, hlow⟩ := h.low
  exact ⟨h.sized, h.sent_le, h.window, h.account.take extra, low, hwindow,
    fun i hi => List.mem_append_left extra (hlow i hi)⟩

theorem Running.answer (h : Running C s log) {u : SlotUse}
    (hopen : (s.slots slot).isOpen = true)
    (hheld : (s.slots slot).isHeld = true → ∃ reply, u = .answered reply ∧
      ∀ i, s.slots slot = .published .streamChunk (C.call.chunk i) → i < C.call.totalChunks →
        reply ≠ .systemError → i ∈ log.taken ++ extra)
    (guest : Go.Reassembler) (delivered : List Delivery) :
    Running C { s.setSlot slot u with guest := guest, delivered := delivered }
      { log with taken := log.taken ++ extra } := by
  have hmem : slot ∈ s.pendingSlots := by
    by_contra hnot
    rw [h.queued.idle slot hnot] at hopen
    cases hopen
  obtain ⟨reply, rfl, htaken⟩ := hheld (h.queued.held slot hmem)
  have hq := h.queued.answered slot reply hmem
  refine ⟨h.sized, ⟨⟨hq.nodup, hq.valid, hq.held⟩, hq.pending_le, hq.sent_le, hq.remaining,
    hq.idle, hq.rotation⟩, h.window, h.account.take extra, h.clean,
    fun i hi => List.mem_append_left extra (h.below i hi), ?_⟩
  intro j slot' hslot'
  have hlt : s.drained + j < C.call.totalChunks := by
    obtain ⟨hj, -⟩ := List.getElem?_eq_some_iff.mp hslot'
    have hsent := h.queued.sent_le
    have hle := h.queued.pending_le
    simp only [SendState.drained, SendState.setSlot] at hj ⊢
    omega
  have hcarried := h.carried j slot' hslot'
  by_cases heq : slot' = slot
  · subst heq
    refine Or.inr ⟨reply, Function.update_self _ _ _, fun hreply => ?_⟩
    cases hcarried with
    | inl hpub => exact htaken _ hpub hlt hreply
    | inr hans =>
      obtain ⟨reply', hans', -⟩ := hans
      rw [hans'] at hopen
      cases hopen
  · simp only [SendState.setSlot, Function.update_of_ne heq]
    cases hcarried with
    | inl hpub => exact Or.inl hpub
    | inr hans =>
      obtain ⟨reply', hans', htaken'⟩ := hans
      exact Or.inr ⟨reply', hans', fun hreply => List.mem_append_left extra (htaken' hreply)⟩

theorem Books.answer (h : Books C s log s.phase) {u : SlotUse}
    (hopen : (s.slots slot).isOpen = true)
    (hheld : (s.slots slot).isHeld = true → ∃ reply, u = .answered reply ∧
      ∀ i, s.slots slot = .published .streamChunk (C.call.chunk i) → i < C.call.totalChunks →
        reply ≠ .systemError → i ∈ log.taken ++ extra)
    (hextra : ∀ i ∈ extra, i < s.chunkIndex) (guest : Go.Reassembler)
    (delivered : List Delivery) :
    Books C { s.setSlot slot u with guest := guest, delivered := delivered }
      { log with taken := log.taken ++ extra } s.phase := by
  have hnil : s.chunkIndex = 0 → extra = [] := by
    intro hzero
    rw [hzero] at hextra
    exact List.eq_nil_iff_forall_not_mem.mpr fun i hi => Nat.not_lt_zero i (hextra i hi)
  have hanswered : (s.slots slot).isHeld = true → ∃ reply, u = .answered reply := by
    intro hslot
    obtain ⟨reply, hu, -⟩ := hheld hslot
    exact ⟨reply, hu⟩
  have hbusy : s.slots slot ≠ .idle := by
    intro hidle
    rw [hidle] at hopen
    cases hopen
  cases hphase : s.phase with
  | enter =>
    rw [hphase] at h
    exact absurd (h.1.idle slot) hbusy
  | start =>
    rw [hphase] at h
    exact absurd (h.2.1.idle slot) hbusy
  | abortWait slot' =>
    rw [hphase] at h
    rw [take_nil log (hnil h.1.chunkIndex)]
    exact ⟨h.1.answer hopen hanswered guest delivered, h.2⟩
  | startWait slot' =>
    rw [hphase] at h
    rw [take_nil log (hnil h.2.1.chunkIndex)]
    exact ⟨h.1, h.2.1.answer hopen hanswered guest delivered, h.2.2⟩
  | fill | drain =>
    rw [hphase] at h
    exact Running.answer h hopen hheld guest delivered
  | failing error =>
    rw [hphase] at h
    exact Draining.take h extra
  | returned result =>
    rw [hphase] at h
    cases result with
    | success => exact ⟨h.1.answer hopen hheld guest delivered, h.2⟩
    | failure error =>
      cases h with
      | inl hdraining => exact Or.inl ⟨hdraining.1.take extra, hdraining.2⟩
      | inr hclosed =>
        rw [take_nil log (hnil hclosed.2)]
        exact Or.inr hclosed

theorem Books.frame {phase : SendPhase} (h : Books C s log phase) (guest : Go.Reassembler)
    (delivered : List Delivery) :
    Books C { s with guest := guest, delivered := delivered } log phase := by
  have hrunning : Running C s log →
      Running C { s with guest := guest, delivered := delivered } log :=
    fun hr => ⟨hr.sized, ⟨⟨hr.queued.nodup, hr.queued.valid, hr.queued.held⟩,
      hr.queued.pending_le, hr.queued.sent_le, hr.queued.remaining, hr.queued.idle,
      hr.queued.rotation⟩, hr.window, hr.account, hr.clean, hr.below, hr.carried⟩
  have hfresh : Fresh C s → Fresh C { s with guest := guest, delivered := delivered } :=
    fun hf => ⟨hf.remaining, hf.chunkIndex, hf.rr, hf.pendingSlots, hf.idle⟩
  have hstarted : ∀ slot, Started C s slot →
      Started C { s with guest := guest, delivered := delivered } slot :=
    fun slot hs => ⟨hs.remaining, hs.chunkIndex, hs.rr, hs.pendingSlots, hs.valid, hs.held, hs.idle⟩
  cases phase with
  | enter =>
    exact ⟨hfresh h.1, h.2⟩
  | start =>
    exact ⟨h.1, hfresh h.2.1, h.2.2⟩
  | abortWait slot =>
    exact ⟨hstarted slot h.1, h.2⟩
  | startWait slot =>
    exact ⟨h.1, hstarted slot h.2.1, h.2.2⟩
  | fill | drain =>
    exact hrunning h
  | failing error =>
    exact h
  | returned result =>
    cases result with
    | success => exact ⟨hrunning h.1, h.2⟩
    | failure error => exact h

end Environment

section Guest

variable {C : AnyCall} {s s' : SendState} {log : SendLog} {slot : Nat}

theorem GuestSide.other (h : GuestSide C s log) (env : Go.Surroundings) (m : MsgType)
    (req : List UInt8) (hother : SendState.addressedTo C.streamId m req = false) :
    (s.guest.handler env m req).1.Quiet ∧
      TakenIn C.streamId log.taken (s.guest.handler env m req).1.inFlight := by
  obtain ⟨hstep, hquiet⟩ := Go.Reassembler.handler_step s.guest env m req h.quiet
  exact ⟨hquiet, h.takes.of_eq_or_none (step_other hstep hother).1⟩

theorem reply_handle (s : SendState) (env : Go.Surroundings) (m : MsgType) (req : List UInt8) :
    (s.handle env m req).2 = ((s.guest.handler env m req).2.map Answer.reply).getD .normal :=
  rfl

theorem GuestSide.handle (h : GuestSide C s log) (env : Go.Surroundings) {m : MsgType}
    {req : List UInt8} (hsends : Sends C s.chunkIndex log m req) :
    (s.guest.handler env m req).1.Quiet ∧
      TakenIn C.streamId (log.taken ++
        (if m = .streamChunk then
          if (s.handle env m req).2 = .systemError then []
          else [(parseChunkHeader req).chunkIndex]
        else [])) (s.guest.handler env m req).1.inFlight := by
  cases hsends with
  | abort =>
    rw [if_neg (by intro hm; cases hm), List.append_nil]
    exact h.other env _ _ rfl
  | start hsized hsent htaken =>
    obtain ⟨hstep, hquiet⟩ := Go.Reassembler.handler_step s.guest env .streamStart
      C.call.startMsg h.quiet
    have htakes := h.takes
    rw [htaken] at htakes
    rw [if_neg (by intro hm; cases hm), List.append_nil, htaken]
    exact ⟨hquiet, htakes.start hstep (by rw [hsized.parse_startMsg]; rfl)⟩
  | chunk hsized index hindex htotal =>
    obtain ⟨hstep, hquiet⟩ := Go.Reassembler.handler_step s.guest env .streamChunk
      (C.call.chunk index) h.quiet
    have htakes := h.takes.chunk hstep (by rw [hsized.parse_chunk index htotal]; rfl)
    refine ⟨hquiet, ?_⟩
    rw [if_pos rfl, reply_handle]
    split at htakes
    case isTrue hrejected =>
      rw [if_pos hrejected, List.append_nil]
      exact htakes
    case isFalse hacknowledged =>
      rw [if_neg hacknowledged]
      exact htakes

theorem GuestSide.answer (h : GuestSide C s log) {u : SlotUse} {extra : List Nat}
    {guest : Go.Reassembler} (delivered : List Delivery) (hu : u.isOpen = false)
    (hguest : guest.Quiet ∧ TakenIn C.streamId (log.taken ++ extra) guest.inFlight)
    (hextra : ∀ i ∈ extra, i < s.chunkIndex) :
    GuestSide C { s.setSlot slot u with guest := guest, delivered := delivered }
      { log with taken := log.taken ++ extra } where
  quiet := hguest.1
  takes := hguest.2
  sent := by
    intro i hi
    cases List.mem_append.mp hi with
    | inl hold => exact h.sent i hold
    | inr hnew => exact hextra i hnew
  messages := by
    intro slot' m req hslot'
    have hne : slot' ≠ slot := by
      intro heq
      simp only [SendState.setSlot, heq, Function.update_self] at hslot'
      rw [isOpen_of_message hslot'] at hu
      cases hu
    simp only [SendState.setSlot, Function.update_of_ne hne] at hslot'
    cases h.messages slot' m req hslot' with
    | abort => exact .abort
    | start hsized hsent htaken =>
      refine .start hsized hsent ?_
      have hnone : extra = [] := List.eq_nil_iff_forall_not_mem.mpr fun i hi => by
        have hlt := hextra i hi
        rw [hsent] at hlt
        exact Nat.not_lt_zero i hlt
      simp only [htaken, hnone, List.append_nil]
    | chunk hsized index hindex htotal => exact .chunk hsized index hindex htotal

end Guest

/-- What holds at every point of `Send`. -/
structure Inv (C : AnyCall) (s : SendState) (log : SendLog) : Prop where
  books : Books C s log s.phase
  guest : GuestSide C s log

section Steps

variable {C : AnyCall} {s s' : SendState} {log : SendLog} {slot : Nat}

theorem work_cases {env : Go.Surroundings} (h : s.work slot env = some s') :
    ∃ m req u, (s.slots slot = .published m req ∧ u = .answered (s.handle env m req).2 ∨
        s.slots slot = .abandoned m req ∧ u = .idle) ∧
      s' = { s.setSlot slot u with
        guest := (s.guest.handler env m req).1
        delivered := (s.handle env m req).1.delivered } := by
  simp only [SendState.work] at h
  split at h
  case h_1 m req hslot =>
    cases h
    exact ⟨m, req, _, Or.inl ⟨hslot, rfl⟩, rfl⟩
  case h_2 m req hslot =>
    cases h
    exact ⟨m, req, _, Or.inr ⟨hslot, rfl⟩, rfl⟩
  · cases h

theorem phase_work {env : Go.Surroundings} (h : s.work slot env = some s') :
    s'.phase = s.phase := by
  obtain ⟨m, req, u, -, rfl⟩ := work_cases h
  rfl

theorem phase_answer {reply : MsgType} (h : SendLoop.answer s slot reply = some s') :
    s'.phase = s.phase := by
  simp only [SendLoop.answer] at h
  split at h
  · cases h
    rfl
  · cases h
    rfl
  · cases h

theorem phase_stranger {env : Go.Surroundings} {m : MsgType} {req : List UInt8}
    (h : s.stranger C.call env m req = some s') : s'.phase = s.phase := by
  simp only [SendState.stranger] at h
  split at h
  · cases h
  · cases h
    rfl

theorem takenBy_eq {env : Go.Surroundings} {m : MsgType} {req : List UInt8}
    (h : s.slots slot = .published m req ∨ s.slots slot = .abandoned m req) :
    (s.takenBy slot env).toList =
      if m = .streamChunk then
        if (s.handle env m req).2 = .systemError then []
        else [(parseChunkHeader req).chunkIndex]
      else [] := by
  have hone : (if (s.handle env m req).2 = .systemError then (none : Option Nat)
      else some (parseChunkHeader req).chunkIndex).toList =
      if (s.handle env m req).2 = .systemError then []
        else [(parseChunkHeader req).chunkIndex] := by
    split <;> rfl
  simp only [SendState.takenBy]
  by_cases hm : m = .streamChunk
  · subst hm
    rw [if_pos rfl, ← hone]
    cases h with
    | inl hpub => rw [hpub]
    | inr habandoned => rw [habandoned]
  · rw [if_neg hm]
    split
    case h_1 hslot =>
      rw [hslot] at h
      cases h with
      | inl hpub => exact absurd (SlotUse.published.inj hpub).1.symm hm
      | inr habandoned => cases habandoned
    case h_2 hslot =>
      rw [hslot] at h
      cases h with
      | inl hpub => cases hpub
      | inr habandoned => exact absurd (SlotUse.abandoned.inj habandoned).1.symm hm
    · rfl

theorem Inv.work (h : Inv C s log) {env : Go.Surroundings} (hs' : s.work slot env = some s') :
    Inv C s' { log with taken := log.taken ++ (s.takenBy slot env).toList } := by
  obtain ⟨m, req, u, hcase, rfl⟩ := work_cases hs'
  have hslot : s.slots slot = .published m req ∨ s.slots slot = .abandoned m req :=
    hcase.imp And.left And.left
  have hsends := h.guest.messages slot m req hslot
  have hguest := h.guest.handle env hsends
  rw [← takenBy_eq hslot] at hguest
  have hextra : ∀ i ∈ (s.takenBy slot env).toList, i < s.chunkIndex := by
    intro i hi
    rw [takenBy_eq hslot] at hi
    cases hsends with
    | abort | start => cases hi
    | chunk hsized index hindex htotal =>
      rw [if_pos rfl] at hi
      split at hi
      · cases hi
      · rw [List.mem_singleton, hsized.parse_chunk index htotal] at hi
        rw [hi]
        exact hindex
  have hopen : (s.slots slot).isOpen = true := by
    cases hslot with
    | inl hpub => rw [hpub]; rfl
    | inr habandoned => rw [habandoned]; rfl
  refine ⟨?_, ?_⟩
  · refine h.books.answer hopen ?_ hextra _ _
    intro hheld
    cases hcase with
    | inl hpub =>
      refine ⟨_, hpub.2, ?_⟩
      intro i hchunk htotal hreply
      obtain ⟨rfl, rfl⟩ := SlotUse.published.inj (hpub.1.symm.trans hchunk)
      rw [takenBy_eq hslot, if_pos rfl, if_neg hreply, hsends.sized.parse_chunk i htotal]
      exact List.mem_append_right _ List.mem_cons_self
    | inr habandoned =>
      rw [habandoned.1] at hheld
      cases hheld
  · refine h.guest.answer _ ?_ hguest hextra
    cases hcase with
    | inl hpub => rw [hpub.2]; rfl
    | inr habandoned => rw [habandoned.2]; rfl

theorem Inv.fault (h : Inv C s log) (hs' : SendLoop.answer s slot .systemError = some s') :
    Inv C s' log := by
  have htake : log = { log with taken := log.taken ++ [] } := (take_nil log rfl).symm
  have hnone : ∀ i ∈ ([] : List Nat), i < s.chunkIndex := by
    intro i hi
    cases hi
  have hguest : s.guest.Quiet ∧ TakenIn C.streamId (log.taken ++ []) s.guest.inFlight := by
    rw [List.append_nil]
    exact ⟨h.guest.quiet, h.guest.takes⟩
  simp only [SendLoop.answer] at hs'
  split at hs'
  case h_1 m req hslot =>
    cases hs'
    rw [htake]
    refine ⟨h.books.answer (by rw [hslot]; rfl) (fun _ => ⟨_, rfl, ?_⟩) hnone s.guest s.delivered,
      h.guest.answer s.delivered rfl hguest hnone⟩
    intro i _ _ hreply
    exact absurd rfl hreply
  case h_2 m req hslot =>
    cases hs'
    rw [htake]
    refine ⟨h.books.answer (by rw [hslot]; rfl) ?_ hnone s.guest s.delivered,
      h.guest.answer s.delivered rfl hguest hnone⟩
    intro hheld
    rw [hslot] at hheld
    cases hheld
  · cases hs'

theorem Inv.stranger (h : Inv C s log) {env : Go.Surroundings} {m : MsgType} {req : List UInt8}
    (hs' : s.stranger C.call env m req = some s') : Inv C s' log := by
  simp only [SendState.stranger] at hs'
  split at hs'
  · cases hs'
  case isFalse hother =>
    cases hs'
    obtain ⟨hquiet, htakes⟩ := h.guest.other env m req (Bool.eq_false_iff.mpr hother)
    exact ⟨h.books.frame _ _, hquiet, htakes, h.guest.sent, h.guest.messages⟩

/-- The thread leaves the guest alone and puts nothing new into the slots. -/
structure Leaves (s s' : SendState) : Prop where
  guest : s'.guest = s.guest
  chunkIndex : s'.chunkIndex = s.chunkIndex
  messages : ∀ slot m req, s'.slots slot = .published m req ∨ s'.slots slot = .abandoned m req →
    s.slots slot = .published m req ∨ s.slots slot = .abandoned m req

theorem Leaves.of_slots (hguest : s'.guest = s.guest) (hindex : s'.chunkIndex = s.chunkIndex)
    (hslots : s'.slots = s.slots) : Leaves s s' :=
  ⟨hguest, hindex, fun slot m req h => by rwa [hslots] at h⟩

theorem Leaves.of_update {u : SlotUse} (hguest : s'.guest = s.guest)
    (hindex : s'.chunkIndex = s.chunkIndex) (hslots : s'.slots = Function.update s.slots slot u)
    (hu : u = .idle ∨ ∃ m req, s.slots slot = .published m req ∧ u = .abandoned m req) :
    Leaves s s' := by
  refine ⟨hguest, hindex, ?_⟩
  intro slot' m req h
  rw [hslots] at h
  by_cases heq : slot' = slot
  · rw [heq, Function.update_self] at h
    rw [heq]
    cases hu with
    | inl hidle =>
      rw [hidle] at h
      cases isOpen_of_message h
    | inr hold =>
      obtain ⟨m', req', hslot, hu'⟩ := hold
      rw [hu'] at h
      cases h with
      | inl hpub => cases hpub
      | inr habandoned =>
        cases habandoned
        exact Or.inl hslot
  · rwa [Function.update_of_ne heq] at h

theorem leaves_loopTest {t : SendState} (h : Leaves s t) : Leaves s t.loopTest := by
  simp only [SendState.loopTest]
  split
  · exact ⟨h.guest, h.chunkIndex, h.messages⟩
  · exact ⟨h.guest, h.chunkIndex, h.messages⟩

theorem leaves_abandon (s : SendState) (slot : Nat) : Leaves s (s.abandon slot) := by
  unfold SendState.abandon
  split
  case h_1 m req hslot => exact .of_update rfl rfl rfl (Or.inr ⟨m, req, hslot, rfl⟩)
  case h_2 => exact .of_update rfl rfl rfl (Or.inl rfl)
  · exact .of_slots rfl rfl rfl

theorem leaves_proceed (hs' : s.proceed C.call = some s') : Leaves s s' := by
  have hgo := SendState.proceeds_of_eq hs'
  generalize s.phase = phase at hgo
  cases hgo with
  | tooLarge | enter | filled | failed => exact .of_slots rfl rfl rfl
  | loop => exact leaves_loopTest (.of_slots rfl rfl rfl)
  | started | acknowledged => exact leaves_loopTest (.of_update rfl rfl rfl (Or.inl rfl))
  | startRejected | aborted | rejected | drained => exact .of_update rfl rfl rfl (Or.inl rfl)

theorem leaves_timeout (hs' : s.timeout = some s') : Leaves s s' := by
  have hgo := SendState.expires_of_eq hs'
  generalize s.phase = phase at hgo
  cases hgo with
  | start slot | abort slot | drain slot | failing _ slot =>
    have h := leaves_abandon s slot
    exact ⟨h.guest, h.chunkIndex, h.messages⟩

theorem leaves_refuse (hs' : s.refuse C.call = some s') : Leaves s s' := by
  simp only [SendState.refuse] at hs'
  split at hs'
  · cases hs'
    exact .of_slots rfl rfl rfl
  · split at hs'
    · cases hs'
      exact .of_slots rfl rfl rfl
    · cases hs'
  · cases hs'

theorem taken_close (log : SendLog) (slot : Nat) (result : WaitResult) :
    (log.close slot result).taken = log.taken := by
  unfold SendLog.close
  split <;> rfl

theorem taken_acquire (log : SendLog) (a : Acquisition) (u : SlotUse) :
    (log.acquire a u).taken = log.taken := by
  unfold SendLog.acquire
  split <;> rfl

theorem Sends.of_taken {sent : Nat} {log' : SendLog} {m : MsgType} {req : List UInt8}
    (h : Sends C sent log m req) (htaken : log'.taken = log.taken) : Sends C sent log' m req := by
  cases h with
  | abort => exact .abort
  | start hsized hsent hnone => exact .start hsized hsent (htaken.trans hnone)
  | chunk hsized index hindex htotal => exact .chunk hsized index hindex htotal

theorem GuestSide.leaves {log' : SendLog} (h : GuestSide C s log) (hs' : Leaves s s')
    (htaken : log'.taken = log.taken) : GuestSide C s' log' where
  quiet := hs'.guest ▸ h.quiet
  takes := by
    rw [hs'.guest, htaken]
    exact h.takes
  sent := by
    rw [hs'.chunkIndex, htaken]
    exact h.sent
  messages := by
    intro slot m req hslot
    rw [hs'.chunkIndex]
    exact (h.messages slot m req (hs'.messages slot m req hslot)).of_taken htaken

theorem taken_proceed : (recordSend C.call s .proceed s' log).taken = log.taken := by
  simp only [recordSend]
  split
  · rfl
  · exact taken_close _ _ _

theorem taken_timeout : (recordSend C.call s .timeout s' log).taken = log.taken := by
  simp only [recordSend]
  split
  · rfl
  · exact taken_close _ _ _

/-- A message is published on a slot of the sender's, and the slots then hold only messages
that belong to it. -/
theorem GuestSide.publish {log' : SendLog} {m : MsgType} {req : List UInt8}
    (h : GuestSide C s log) (hguest : s'.guest = s.guest)
    (hindex : s.chunkIndex ≤ s'.chunkIndex)
    (hslots : s'.slots = Function.update s.slots slot (.published m req))
    (htaken : log'.taken = log.taken) (hnew : Sends C s'.chunkIndex log' m req)
    (hothers : ∀ slot' m' req', slot' ≠ slot →
      s.slots slot' = .published m' req' ∨ s.slots slot' = .abandoned m' req' →
      Sends C s'.chunkIndex log' m' req') : GuestSide C s' log' where
  quiet := hguest ▸ h.quiet
  takes := by
    rw [hguest, htaken]
    exact h.takes
  sent := by
    intro i hi
    rw [htaken] at hi
    exact Nat.lt_of_lt_of_le (h.sent i hi) hindex
  messages := by
    intro slot' m' req' hslot'
    rw [hslots] at hslot'
    by_cases heq : slot' = slot
    · rw [heq, Function.update_self] at hslot'
      cases hslot' with
      | inl hpub =>
        cases hpub
        exact hnew
      | inr habandoned => cases habandoned
    · rw [Function.update_of_ne heq] at hslot'
      exact hothers slot' m' req' heq hslot'

theorem Running.holds (h : Running C s log) {m : MsgType} {req : List UInt8}
    (hslot : s.slots slot = .published m req ∨ s.slots slot = .abandoned m req) :
    ∃ index, index < s.chunkIndex ∧ m = .streamChunk ∧ req = C.call.chunk index := by
  have hmem : slot ∈ s.pendingSlots := by
    by_contra hnot
    rw [h.queued.idle slot hnot] at hslot
    cases isOpen_of_message hslot
  obtain ⟨j, hj⟩ := List.mem_iff_getElem?.mp hmem
  obtain ⟨hlt, -⟩ := List.getElem?_eq_some_iff.mp hj
  have hle := h.queued.pending_le
  have hsent : s.drained + j < s.chunkIndex := by
    simp only [SendState.drained]
    omega
  cases h.carried j slot hj with
  | inl hpub =>
    rw [hpub] at hslot
    cases hslot with
    | inl hsame =>
      obtain ⟨rfl, rfl⟩ := SlotUse.published.inj hsame
      exact ⟨_, hsent, rfl, rfl⟩
    | inr habandoned => cases habandoned
  | inr hans =>
    obtain ⟨reply, hans, -⟩ := hans
    rw [hans] at hslot
    cases isOpen_of_message hslot

theorem Fresh.not_busy (h : Fresh C s) {m : MsgType} {req : List UInt8} :
    ¬ (s.slots slot = .published m req ∨ s.slots slot = .abandoned m req) := by
  intro hbusy
  rw [h.idle slot] at hbusy
  cases isOpen_of_message hbusy

theorem Inv.acquire (hC : Typed C) (h : Inv C s log) (hs' : s.acquire C.call slot = some s') :
    Inv C s' (log.acquire ⟨slot, s.cargo C.call⟩ (s'.slots slot)) := by
  refine ⟨books_acquire hC h.books hs', ?_⟩
  obtain ⟨hslot, huse⟩ := SendState.acquires_of_eq hs'
  have hbooks := h.books
  generalize s.phase = phase at hbooks huse
  cases huse with
  | abort hsmall =>
    obtain ⟨-, hfresh, rfl⟩ := hbooks
    exact h.guest.publish rfl (Nat.le_refl _) rfl (taken_acquire _ _ _) .abort
      (fun _ _ _ _ hbusy => (hfresh.not_busy hbusy).elim)
  | start hroom =>
    obtain ⟨hsize, hfresh, rfl⟩ := hbooks
    exact h.guest.publish rfl (Nat.le_refl _) rfl (taken_acquire _ _ _)
      (.start ⟨hroom, hsize, hC.streamId, hC.appMsgType⟩ hfresh.chunkIndex
        (taken_acquire _ _ _))
      (fun _ _ _ _ hbusy => (hfresh.not_busy hbusy).elim)
  | chunk hfill =>
    have hrunning : Running C s log := hbooks
    obtain ⟨hpos, -⟩ := SendState.canFill_iff.mp hfill
    have htotal : s.chunkIndex < C.call.totalChunks :=
      (hrunning.sized.lt_totalChunks _).mpr (by
        have hremaining := hrunning.queued.remaining
        simp only [AnyCall.call] at hremaining ⊢
        omega)
    rw [SendState.sendChunk_eq hrunning.sized hrunning.queued.remaining hpos slot]
    refine h.guest.publish rfl (Nat.le_succ _) rfl (taken_acquire _ _ _)
      (.chunk hrunning.sized _ (Nat.lt_succ_self _) htotal) ?_
    intro slot' m req _ hbusy
    obtain ⟨index, hindex, rfl, rfl⟩ := hrunning.holds hbusy
    exact .chunk hrunning.sized index (Nat.lt_succ_of_lt hindex)
      (Nat.lt_of_lt_of_le hindex hrunning.queued.sent_le)

theorem Inv.step (hC : Typed C) (h : Inv C s log) {a : SenderAction}
    (hs' : s.sendStep C.call a = some s') : Inv C s' (recordSend C.call s a s' log) := by
  cases a with
  | acquire slot => exact h.acquire hC hs'
  | refused => exact ⟨books_refuse h.books hs', h.guest.leaves (leaves_refuse hs') rfl⟩
  | proceed =>
    exact ⟨books_proceed h.books hs', h.guest.leaves (leaves_proceed hs') taken_proceed⟩
  | timeout =>
    exact ⟨books_timeout h.books hs', h.guest.leaves (leaves_timeout hs') taken_timeout⟩
  | work slot env => exact h.work hs'
  | fault slot => exact h.fault hs'
  | stranger env m req => exact h.stranger hs'

end Steps

/-- The chunks that are out are the last ones sent, at most `m`, and each one below them has
been waited for. -/
def InWindow (m sent : Nat) (log : SendLog) (ok : Prop) : Prop :=
  ∃ low, low ≤ sent ∧ sent ≤ low + m ∧ log.pendingChunks = List.range' low (sent - low) ∧
    ∀ i, i < low → ∃ x ∈ log.waits, x.1.cargo = .chunk i ∧ (ok → x.2 = .acknowledged)

section Results

variable {C : AnyCall} {s : SendState} {log : SendLog} {sent : Nat} {queue : List Nat}

theorem inv_initial (h : SendState.Initial C.call s) : Inv C s .new := by
  have hquiet : s.guest.Quiet := by
    obtain ⟨timeout, events, hguest⟩ := h.guest
    rw [hguest]
    exact (Go.Reassembler.history_run timeout events).2
  refine ⟨?_, hquiet, ?_, ?_, ?_⟩
  · rw [h.phase]
    exact ⟨⟨h.remaining, h.chunkIndex, h.rr, h.pendingSlots, h.slots⟩, rfl⟩
  · intro c hc
    have hsome := Go.Reassembler.inFlight_isSome hquiet C.streamId
    have hunused : s.guest.streams.lookup C.streamId = none := h.unused
    rw [hunused, hc] at hsome
    cases hsome
  · intro i hi
    cases hi
  · intro slot m req hslot
    rw [h.slots slot] at hslot
    cases isOpen_of_message hslot

theorem inv_reachable (hC : Typed C) {s₀ : SendState} (h₀ : SendState.Initial C.call s₀)
    (hr : Reachable C.call.logged (fun _ _ => True) (s₀, .new) (s, log)) : Inv C s log :=
  hr.recorded_invariant (Inv C) (inv_initial h₀) fun _ _ _ _ h _ hs' => h.step hC hs'

theorem mem_inQueue {a : Acquisition} (hle : queue.length ≤ sent) (ha : a ∈ inQueue sent queue) :
    ∃ i, a.cargo = .chunk i ∧ sent - queue.length ≤ i := by
  induction queue with
  | nil => cases ha
  | cons slot queue ih =>
    rw [List.length_cons] at hle
    rw [inQueue_cons hle, List.mem_cons] at ha
    cases ha with
    | inl hhead => exact ⟨_, by rw [hhead, List.length_cons], Nat.le_refl _⟩
    | inr htail =>
      obtain ⟨i, hcargo, hi⟩ := ih (Nat.le_of_succ_le hle) htail
      refine ⟨i, hcargo, ?_⟩
      rw [List.length_cons]
      omega

theorem Account.pendingChunks (h : Account C sent queue log) :
    log.pendingChunks = List.range' (sent - queue.length) queue.length := by
  have hle := h.queue_le
  rw [SendLog.pendingChunks, h.unwaited]
  clear h
  induction queue with
  | nil => rfl
  | cons slot queue ih =>
    rw [List.length_cons] at hle
    have hnext : sent - (queue.length + 1) + 1 = sent - queue.length := by omega
    rw [inQueue_cons hle, List.length_cons, List.range'_succ, hnext,
      ← ih (Nat.le_of_succ_le hle)]
    rfl

theorem Account.waited (h : Account C sent queue log) {i : Nat} (hi : i < sent - queue.length) :
    ∃ x ∈ log.waits, x.1.cargo = .chunk i := by
  have hsent : Cargo.chunk i ∈ log.acquired.map Acquisition.cargo := by
    rw [h.cargo]
    exact List.mem_cons_of_mem _ (List.mem_map_of_mem (List.mem_range.mpr (by omega)))
  obtain ⟨a, ha, hcargo⟩ := List.mem_map.mp hsent
  rw [h.acquired, List.mem_append] at ha
  cases ha with
  | inl hwaited =>
    obtain ⟨x, hx, rfl⟩ := List.mem_map.mp hwaited
    exact ⟨x, hx, hcargo⟩
  | inr hpending =>
    rw [h.unwaited] at hpending
    obtain ⟨j, hj, hle⟩ := mem_inQueue h.queue_le hpending
    rw [hcargo] at hj
    cases hj
    omega

theorem Account.settled (h : Account C sent [] log) :
    log.acquired.Nodup ∧ (log.waits.map Prod.fst ++ log.refused).Perm log.acquired := by
  constructor
  · refine List.Nodup.of_map Acquisition.cargo ?_
    rw [h.cargo, List.nodup_cons]
    refine ⟨?_, List.nodup_range.map fun i j hij => Cargo.chunk.inj hij⟩
    intro hmem
    obtain ⟨i, -, hi⟩ := List.mem_map.mp hmem
    cases hi
  · rw [h.refused, List.append_nil, h.acquired, h.unwaited]
    exact .of_eq (List.append_nil _).symm

theorem Closed.settled (h : Closed log) :
    log.acquired.Nodup ∧ (log.waits.map Prod.fst ++ log.refused).Perm log.acquired := by
  cases h with
  | untouched hlog =>
    rw [hlog]
    exact ⟨List.nodup_nil, .refl _⟩
  | opened a result hacquired _ hwaits hrefused _ =>
    rw [hacquired, hwaits, hrefused]
    exact ⟨List.nodup_singleton a, .refl _⟩

theorem Account.window (h : Account C sent queue log) {m : Nat} (hwindow : queue.length ≤ m)
    {ok : Prop} (hwaits : ok → ∀ x ∈ log.waits, x.2 = .acknowledged) :
    InWindow m sent log ok := by
  have hle := h.queue_le
  have hlen : sent - (sent - queue.length) = queue.length := by omega
  refine ⟨sent - queue.length, Nat.sub_le _ _, by omega, ?_, ?_⟩
  · rw [hlen]
    exact h.pendingChunks
  · intro i hi
    obtain ⟨x, hx, hcargo⟩ := h.waited hi
    exact ⟨x, hx, hcargo, fun hok => hwaits hok x hx⟩

theorem Running.inWindow (h : Running C s log) (ok : Prop) :
    InWindow C.call.maxInFlight s.chunkIndex log ok :=
  h.account.window h.window fun _ => h.clean

theorem Draining.inWindow (h : Draining C sent queue log) {ok : Prop} (hfailed : ok = False) :
    InWindow C.call.maxInFlight sent log ok :=
  h.account.window h.window fun hok => (hfailed ▸ hok : False).elim

theorem window_none (hsent : sent = 0) (hpending : log.pendingChunks = []) (m : Nat) (ok : Prop) :
    InWindow m sent log ok := by
  refine ⟨0, Nat.zero_le _, by omega, ?_, fun i hi => absurd hi (Nat.not_lt_zero i)⟩
  rw [hpending, hsent]
  rfl

end Results

end SendLoop

/-- A chunk failed, or the call did before its first chunk. -/
def SendPhase.hasFailed : SendPhase → Bool
  | .failing _ | .returned (.failure _) => true
  | _ => false

/-- The thread is about to call `acquireSlot`. -/
def SendState.requests (P : SendCall) (s : SendState) : Bool :=
  match s.phase with
  | .start => true
  | .fill => s.canFill P
  | _ => false

namespace SendLoop

section Results

variable {C : AnyCall} {s : SendState} {log : SendLog}

theorem Opening.pendingChunks {slot : Nat} {cargo : Cargo} {m : MsgType} {req : List UInt8}
    (h : Opening ⟨slot, cargo⟩ m req log) (hcargo : cargo = .abort ∨ cargo = .start) :
    log.pendingChunks = [] := by
  rw [SendLog.pendingChunks, h.unwaited]
  cases hcargo with
  | inl habort =>
    rw [habort]
    rfl
  | inr hstart =>
    rw [hstart]
    rfl

theorem Closed.pendingChunks (h : Closed log) : log.pendingChunks = [] := by
  cases h with
  | untouched hlog =>
    rw [hlog]
    rfl
  | opened a result _ hunwaited _ _ _ =>
    rw [SendLog.pendingChunks, hunwaited]
    rfl

theorem Books.window {phase : SendPhase} (h : Books C s log phase) :
    InWindow C.call.maxInFlight s.chunkIndex log (phase.hasFailed = false) := by
  cases phase with
  | enter =>
    obtain ⟨hfresh, rfl⟩ := h
    exact window_none hfresh.chunkIndex rfl _ _
  | start =>
    obtain ⟨-, hfresh, rfl⟩ := h
    exact window_none hfresh.chunkIndex rfl _ _
  | abortWait slot => exact window_none h.1.chunkIndex (h.2.pendingChunks (Or.inl rfl)) _ _
  | startWait slot => exact window_none h.2.1.chunkIndex (h.2.2.pendingChunks (Or.inr rfl)) _ _
  | fill | drain => exact Running.inWindow h _
  | failing error => exact Draining.inWindow h Bool.true_eq_false
  | returned result =>
    cases result with
    | success => exact h.1.inWindow _
    | failure error =>
      cases h with
      | inl hdraining => exact hdraining.1.inWindow Bool.true_eq_false
      | inr hclosed => exact window_none hclosed.2 hclosed.1.pendingChunks _ _

theorem Books.low {phase : SendPhase} (h : Books C s log phase) :
    ∃ low, s.chunkIndex ≤ low + C.call.maxInFlight ∧ ∀ i, i < low → i ∈ log.taken := by
  have hzero : s.chunkIndex = 0 →
      ∃ low, s.chunkIndex ≤ low + C.call.maxInFlight ∧ ∀ i, i < low → i ∈ log.taken := by
    intro hsent
    exact ⟨0, by omega, fun i hi => absurd hi (Nat.not_lt_zero i)⟩
  cases phase with
  | enter => exact hzero h.1.chunkIndex
  | start => exact hzero h.2.1.chunkIndex
  | abortWait slot => exact hzero h.1.chunkIndex
  | startWait slot => exact hzero h.2.1.chunkIndex
  | fill | drain => exact (Running.draining h).low
  | failing error => exact Draining.low h
  | returned result =>
    cases result with
    | success => exact h.1.draining.low
    | failure error =>
      cases h with
      | inl hdraining => exact hdraining.1.low
      | inr hclosed => exact hzero hclosed.2

theorem Books.settled {result : SendResult} (h : Books C s log (.returned result)) :
    log.acquired.Nodup ∧ (log.waits.map Prod.fst ++ log.refused).Perm log.acquired := by
  cases result with
  | success =>
    have haccount := h.1.account
    rw [h.2.1] at haccount
    exact haccount.settled
  | failure error =>
    cases h with
    | inl hdraining =>
      have haccount := hdraining.1.account
      rw [hdraining.2] at haccount
      exact haccount.settled
    | inr hclosed => exact hclosed.1.settled

theorem Books.rotated_notMem (h : Books C s log s.phase) (hbase : 0 ≤ C.base)
    (hrequests : s.requests C.call = true) : C.rotated s.rr ∉ s.pendingSlots := by
  cases hphase : s.phase with
  | start =>
    rw [hphase] at h
    rw [h.2.1.pendingSlots]
    exact List.not_mem_nil
  | fill =>
    rw [hphase] at h
    simp only [SendState.requests, hphase] at hrequests
    exact Running.queued h |>.rotated_notMem hbase (SendState.canFill_iff.mp hrequests).2
  | enter | abortWait | startWait | drain | failing | returned =>
    simp only [SendState.requests, hphase, Bool.false_eq_true] at hrequests

end Results

end SendLoop

end ShmIpc.Stream
