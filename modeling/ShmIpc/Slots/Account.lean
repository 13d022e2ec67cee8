import ShmIpc.Slots.GuestTraffic

/-!
The account of a guest slot as far as it does not depend on who calls. The slot
carries the latest request from its publication until a caller parks it again; at
most one processor has taken it, and that one sees the request and nothing else;
and what stands in the response area when the slot is at `respReady` answers it.
What is accepted as an answer is a parameter, so that callers which treat a refusal
of the host differently share the account.
-/

namespace ShmIpc.Slots

open Library

variable {Tid Pid : Type}

def LastRequest (h : GuestTraffic Tid Pid) (r : Request) : Prop := h.requests.getLast? = some r

/-- A run of the handler for exactly the latest request, with what it returned. -/
structure Ran (h : GuestTraffic Tid Pid) (r : Request) (run : GuestRun) (respSize : Int)
    (respBuffer : List UInt8) : Prop where
  mem : run ∈ h.runs
  request : run.request + 1 = h.requests.length
  msgType : run.msgType = r.msgType
  views : ∀ view ∈ run.views, view = r.data
  answer : run.answer = some (respSize, respBuffer)

/-- Why the host refuses the latest request: its size is beyond the request area, or the
size that its handler returned is beyond the response area. -/
inductive Refused (h : GuestTraffic Tid Pid) (r : Request) (reqCapacity : Nat) : Prop
  | request (hsize : reqCapacity < r.size.natAbs)
  | response (run : GuestRun) (respSize : Int) (respBuffer : List UInt8)
      (hran : Ran h r run respSize respBuffer) (hsize : respBuffer.length < respSize.natAbs)

/-- What is accepted as an answer to the latest request in a slot with a request area of
some length. The host's refusal of it has to be, and what a run of the handler for it
returned. -/
structure AnswerRule (Tid Pid : Type) where
  accepts : GuestTraffic Tid Pid → Request → Nat → Int × MsgType × List UInt8 → Prop
  refusal : ∀ (h : GuestTraffic Tid Pid) (r : Request) (reqCapacity : Nat)
    (respBuffer : List UInt8), Refused h r reqCapacity →
    accepts h r reqCapacity (0, .systemError, respBuffer)
  handler : ∀ (h : GuestTraffic Tid Pid) (r : Request) (reqCapacity : Nat) (run : GuestRun)
    (respSize : Int) (respBuffer : List UInt8), Ran h r run respSize respBuffer →
    accepts h r reqCapacity (respSize, r.msgType, respBuffer)

/-- What a processor has gathered about the latest request. -/
def AnswerRule.Work (A : AnswerRule Tid Pid) (h : GuestTraffic Tid Pid) (p : Pid) (r : Request)
    (s : Slot) : ProcessorPc → Prop
  | .loadMsgType reqSize => reqSize = r.size
  | .handling _ reqSize => reqSize = r.size ∧ (h.current p).request + 1 = h.requests.length ∧
      (h.current p).msgType = r.msgType ∧ ∀ view ∈ (h.current p).views, view = r.data
  | .lock writes | .write writes => A.accepts h r s.reqBuffer.length (answerAfter s writes)
  | .publish => A.accepts h r s.reqBuffer.length (answerAfter s [])
  | _ => True

structure Account (A : AnswerRule Tid Pid) (s : Slot) (processor : Pid → ProcessorPc)
    (h : GuestTraffic Tid Pid) : Prop where
  alone : ∀ p q, (processor p).served = true → (processor q).served = true → p = q
  serving : ∀ p, (processor p).served = true → h.taken p = h.requests.length ∧
    s.state = if (processor p).locked then .done else .busy
  carries : Phase.awaiting.Allows Go.tryClaimGuestSlot s.state → ∃ r, LastRequest h r ∧
    s.reqSize = r.size ∧ sized s.reqBuffer r.size = r.data
  typed : s.state = .reqReady ∨ s.state = .busy → ∀ r, LastRequest h r → s.msgType = r.msgType
  work : ∀ p r, LastRequest h r → A.Work h p r s (processor p)
  answered : s.state = .respReady →
    ∀ r, LastRequest h r → A.accepts h r s.reqBuffer.length (answerAfter s [])

structure SameData (s s' : Slot) : Prop where
  reqSize : s'.reqSize = s.reqSize
  reqBuffer : s'.reqBuffer = s.reqBuffer
  msgType : s'.msgType = s.msgType
  respSize : s'.respSize = s.respSize
  respBuffer : s'.respBuffer = s.respBuffer

section

variable {A : AnswerRule Tid Pid} {s s' : Slot} {processor : Pid → ProcessorPc}
  {h h' : GuestTraffic Tid Pid}

theorem sameData_words (s : Slot) {gen lease msgSeq nextSeq : Nat} {flag : Bool} :
    SameData s { s with
      gen := gen, lease := lease, msgSeq := msgSeq, nextSeq := nextSeq, activeWait := flag } :=
  ⟨rfl, rfl, rfl, rfl, rfl⟩

theorem SameData.answer (hsame : SameData s s') (writes : List HeaderWrite) :
    answerAfter s' writes = answerAfter s writes :=
  answerAfter_congr writes hsame.respSize hsame.msgType hsame.respBuffer

theorem AnswerRule.work_of_unserved {p : Pid} {r : Request} {pc : ProcessorPc}
    (hpc : pc.served = false) : A.Work h p r s pc := by
  cases pc with
  | scanning | bumpGen | claim => trivial
  | _ => cases hpc

theorem AnswerRule.work_congr {p : Pid} {r : Request} {pc : ProcessorPc}
    (hsame : SameData s s') (hwork : A.Work h p r s pc) : A.Work h p r s' pc := by
  cases pc with
  | lock writes | write writes =>
    simp only [AnswerRule.Work, hsame.answer writes, hsame.reqBuffer]
    exact hwork
  | publish =>
    simp only [AnswerRule.Work, hsame.answer [], hsame.reqBuffer]
    exact hwork
  | _ => exact hwork

theorem account_initial (hfree : s.state = .free) (hscanning : ∀ p, processor p = .scanning) :
    Account A s processor h := by
  have hnone : ∀ {p} {P : Prop}, (processor p).served = true → P := by
    intro p P hp
    rw [hscanning p] at hp
    cases hp
  refine ⟨fun p _ hp => hnone hp, fun p hp => hnone hp, ?_, ?_, ?_, ?_⟩
  · rw [hfree]
    rintro (hs | hs | hs | hs)
    · cases hs
    · cases hs
    · cases hs
    · cases hs
  · rw [hfree]
    rintro (hs | hs)
    · cases hs
    · cases hs
  · intro p r _
    rw [hscanning p]
    trivial
  · intro hs
    rw [hfree] at hs
    cases hs

theorem LastRequest.length_pos {r : Request} (hr : LastRequest h r) : 0 < h.requests.length := by
  refine List.length_pos_iff.mpr ?_
  intro hnil
  unfold LastRequest at hr
  rw [hnil] at hr
  cases hr

theorem Account.carried {r : Request} (ha : Account A s processor h) (hstate : s.state = .busy)
    (hr : LastRequest h r) : s.reqSize = r.size ∧ sized s.reqBuffer r.size = r.data := by
  obtain ⟨r', hr', hcarries⟩ := ha.carries (.inr (.inl hstate))
  obtain rfl := Option.some.inj (hr'.symm.trans hr)
  exact hcarries

theorem Account.unserved (ha : Account A s processor h)
    (hstate : s.state ≠ .busy ∧ s.state ≠ .done) (p : Pid) : (processor p).served = false := by
  cases hserved : (processor p).served with
  | false => rfl
  | true =>
    have hs := (ha.serving p hserved).2
    cases hlocked : (processor p).locked with
    | true => rw [hlocked] at hs; exact absurd hs hstate.2
    | false => rw [hlocked] at hs; exact absurd hs hstate.1

theorem Account.others (ha : Account A s processor h) {p : Pid}
    (hp : (processor p).served = true) (q : Pid) (hq : q ≠ p) :
    (processor q).served = false := by
  cases hserved : (processor q).served with
  | false => rfl
  | true => exact absurd (ha.alone q p hserved hp) hq

theorem Account.look (ha : Account A s processor h) (hstate : s'.state = s.state)
    (hsame : SameData s s') : Account A s' processor h where
  alone := ha.alone
  serving p hp := hstate ▸ ha.serving p hp
  carries hs := by
    rw [hsame.reqSize, hsame.reqBuffer]
    exact ha.carries (hstate ▸ hs)
  typed hs := by
    rw [hsame.msgType]
    exact ha.typed (hstate ▸ hs)
  work p r hr := AnswerRule.work_congr hsame (ha.work p r hr)
  answered hs r hr := by
    rw [hsame.answer [], hsame.reqBuffer]
    exact ha.answered (hstate ▸ hs) r hr

theorem Account.park (ha : Account A s processor h)
    (hbefore : s.state ≠ .busy ∧ s.state ≠ .done)
    (hstate : s'.state = .guestBusy ∨ s'.state = .free) : Account A s' processor h := by
  have hunserved := ha.unserved hbefore
  have hnot : s'.state ≠ .reqReady ∧ s'.state ≠ .busy ∧ s'.state ≠ .done ∧
      s'.state ≠ .respReady := by
    cases hstate with
    | inl hs => rw [hs]; exact ⟨nofun, nofun, nofun, nofun⟩
    | inr hs => rw [hs]; exact ⟨nofun, nofun, nofun, nofun⟩
  refine ⟨ha.alone, ?_, ?_, ?_, fun p _ _ => AnswerRule.work_of_unserved (hunserved p),
    fun hs => absurd hs hnot.2.2.2⟩
  · intro p hp
    rw [hunserved p] at hp
    cases hp
  · rintro (hs | hs | hs | hs)
    · exact absurd hs hnot.1
    · exact absurd hs hnot.2.1
    · exact absurd hs hnot.2.2.1
    · exact absurd hs hnot.2.2.2
  · rintro (hs | hs)
    · exact absurd hs hnot.1
    · exact absurd hs hnot.2.1

theorem Account.post (ha : Account A s processor h) (hstate : s.state = .guestBusy)
    {r : Request} (hlast : LastRequest h' r) (hsize : s.reqSize = r.size)
    (hdata : sized s.reqBuffer r.size = r.data) (htype : s.msgType = r.msgType) :
    Account A { s with state := .reqReady } processor h' := by
  have hunserved := ha.unserved (by rw [hstate]; exact ⟨nofun, nofun⟩)
  refine ⟨ha.alone, ?_, fun _ => ⟨r, hlast, hsize, hdata⟩, ?_,
    fun p _ _ => AnswerRule.work_of_unserved (hunserved p), nofun⟩
  · intro p hp
    rw [hunserved p] at hp
    cases hp
  · intro _ r' hr'
    obtain rfl := Option.some.inj (hlast.symm.trans hr')
    exact htype

theorem AnswerRule.accepts_return {r : Request} {run : GuestRun} {respSize : Int}
    (hmem : { run with answer := some (respSize, s.respBuffer) } ∈ h.runs)
    (hrequest : run.request + 1 = h.requests.length) (htype : run.msgType = r.msgType)
    (hviews : ∀ view ∈ run.views, view = r.data) (hslot : s.msgType = r.msgType) :
    A.accepts h r s.reqBuffer.length (answerAfter s (answerWrites s respSize)) := by
  have hran : Ran h r { run with answer := some (respSize, s.respBuffer) } respSize
      s.respBuffer := ⟨hmem, hrequest, htype, hviews, rfl⟩
  unfold answerWrites
  split
  · next hsize => exact A.refusal h r _ s.respBuffer (.response _ _ _ hran hsize)
  · simp only [answerAfter, HeaderWrite.apply, hslot]
    exact A.handler h r _ _ respSize s.respBuffer hran

variable [DecidableEq Pid]

theorem Account.scan {p : Pid} {pc' : ProcessorPc} (ha : Account A s processor h)
    (hpc' : pc'.served = false) (hstate : s'.state = s.state) (hsame : SameData s s') :
    Account A s' (Function.update processor p pc') h := by
  have hserved : ∀ q, (Function.update processor p pc' q).served = true →
      Function.update processor p pc' q = processor q := by
    intro q hq
    by_cases hne : q = p
    · subst hne
      rw [Function.update_self, hpc'] at hq
      cases hq
    · exact Function.update_of_ne hne _ _
  refine ⟨?_, ?_, ?_, ?_, ?_, ?_⟩
  · intro q q' hq hq'
    exact ha.alone q q' (hserved q hq ▸ hq) (hserved q' hq' ▸ hq')
  · intro q hq
    have hsame := hserved q hq
    rw [hsame] at hq ⊢
    exact hstate ▸ ha.serving q hq
  · rw [hstate, hsame.reqSize, hsame.reqBuffer]
    exact ha.carries
  · rw [hstate, hsame.msgType]
    exact ha.typed
  · refine (Function.forall_update_iff processor fun q pc => ∀ r, LastRequest h r →
      A.Work h q r s' pc).mpr ⟨fun _ _ => AnswerRule.work_of_unserved hpc', ?_⟩
    intro q _ r hr
    exact AnswerRule.work_congr hsame (ha.work q r hr)
  · rw [hstate, hsame.answer [], hsame.reqBuffer]
    exact ha.answered

theorem Account.serve {p : Pid} {pc' : ProcessorPc} (ha : Account A s processor h)
    (hstate : s.state = .reqReady ∨ s.state = .busy ∨ s.state = .done)
    (hothers : ∀ q, q ≠ p → (processor q).served = false)
    (hsize : s'.reqSize = s.reqSize) (hbuffer : s'.reqBuffer = s.reqBuffer)
    (hrequests : h'.requests = h.requests)
    (hserving : pc'.served = true → h'.taken p = h.requests.length ∧
      s'.state = if pc'.locked then .done else .busy)
    (htyped : s'.state = .reqReady ∨ s'.state = .busy →
      (s.state = .reqReady ∨ s.state = .busy) ∧ s'.msgType = s.msgType)
    (hwork : ∀ r, LastRequest h r → A.Work h' p r s' pc')
    (hanswered : s'.state = .respReady →
      ∀ r, LastRequest h r → A.accepts h' r s'.reqBuffer.length (answerAfter s' [])) :
    Account A s' (Function.update processor p pc') h' := by
  have hlast : ∀ r, LastRequest h' r → LastRequest h r := by
    intro r hr
    unfold LastRequest at hr ⊢
    rw [← hrequests]
    exact hr
  have hserved : ∀ q, (Function.update processor p pc' q).served = true → q = p := by
    intro q hq
    by_contra hne
    rw [Function.update_of_ne hne, hothers q hne] at hq
    cases hq
  refine ⟨?_, ?_, ?_, ?_, ?_, ?_⟩
  · intro q q' hq hq'
    rw [hserved q hq, hserved q' hq']
  · intro q hq
    obtain rfl := hserved q hq
    rw [Function.update_self] at hq ⊢
    rw [hrequests]
    exact hserving hq
  · intro _
    obtain ⟨r, hr, hcarries⟩ := ha.carries (by
      obtain hs | hs | hs := hstate
      · exact .inl hs
      · exact .inr (.inl hs)
      · exact .inr (.inr (.inl hs)))
    rw [hsize, hbuffer]
    refine ⟨r, ?_, hcarries⟩
    unfold LastRequest
    rw [hrequests]
    exact hr
  · intro hs r hr
    obtain ⟨hold, htype⟩ := htyped hs
    exact htype.trans (ha.typed hold r (hlast r hr))
  · refine (Function.forall_update_iff processor fun q pc => ∀ r, LastRequest h' r →
      A.Work h' q r s' pc).mpr ⟨fun r hr => hwork r (hlast r hr), ?_⟩
    intro q hq r _
    exact AnswerRule.work_of_unserved (hothers q hq)
  · exact fun hs r hr => hanswered hs r (hlast r hr)

theorem Account.proceed {p : Pid} {pc' : ProcessorPc} (ha : Account A s processor h)
    (hbusy : h.taken p = h.requests.length ∧ s.state = .busy)
    (hothers : ∀ q, q ≠ p → (processor q).served = false) (hlocked : pc'.locked = false)
    (hstate : s'.state = s.state) (hsize : s'.reqSize = s.reqSize)
    (hbuffer : s'.reqBuffer = s.reqBuffer) (htype : s'.msgType = s.msgType)
    (hrequests : h'.requests = h.requests) (htaken : h'.taken = h.taken)
    (hwork : ∀ r, LastRequest h r → A.Work h' p r s' pc') :
    Account A s' (Function.update processor p pc') h' := by
  have hstate' : s'.state = .busy := hstate.trans hbusy.2
  refine ha.serve (.inr (.inl hbusy.2)) hothers hsize hbuffer hrequests ?_
    (fun _ => ⟨.inr hbusy.2, htype⟩) hwork ?_
  · intro _
    rw [hlocked, htaken]
    exact ⟨hbusy.1, hstate'⟩
  · intro hs
    rw [hstate'] at hs
    cases hs

theorem Account.claim {p : Pid} {pc' : ProcessorPc} (ha : Account A s processor h)
    (hstate : s.state = .reqReady) (hlocked : pc'.locked = false)
    (hwork : ∀ r, A.Work { h with taken := Function.update h.taken p h.requests.length } p r
      { s with state := .busy } pc') :
    Account A { s with state := .busy } (Function.update processor p pc')
      { h with taken := Function.update h.taken p h.requests.length } := by
  refine ha.serve (.inl hstate) (fun q _ => ha.unserved ?_ q) rfl rfl rfl ?_
    (fun _ => ⟨.inl hstate, rfl⟩) (fun r _ => hwork r) (by intro h; cases h)
  · rw [hstate]
    exact ⟨(by intro h; cases h), (by intro h; cases h)⟩
  · intro _
    rw [hlocked]
    exact ⟨Function.update_self _ _ _, rfl⟩

theorem Account.hold {p : Pid} {pc' : ProcessorPc} (ha : Account A s processor h)
    (hdone : h.taken p = h.requests.length ∧ s.state = .done)
    (hothers : ∀ q, q ≠ p → (processor q).served = false) (hlocked : pc'.locked = true)
    (hstate : s'.state = s.state) (hsize : s'.reqSize = s.reqSize)
    (hbuffer : s'.reqBuffer = s.reqBuffer)
    (hwork : ∀ r, LastRequest h r → A.Work h p r s' pc') :
    Account A s' (Function.update processor p pc') h := by
  have hstate' : s'.state = .done := hstate.trans hdone.2
  refine ha.serve (.inr (.inr hdone.2)) hothers hsize hbuffer rfl ?_ ?_ hwork ?_
  · intro _
    rw [hlocked]
    exact ⟨hdone.1, hstate'⟩
  · rw [hstate']
    rintro (hs | hs)
    · cases hs
    · cases hs
  · rw [hstate']
    intro hs
    cases hs

theorem account_processor {config : GuestConfig} {p : Pid} {pc' : ProcessorPc}
    {move : ProcessorMove} (ha : Account A s processor h)
    (hstep : processorStep config s (processor p) move = some (s', pc')) :
    Account A s' (Function.update processor p pc')
      (recordProcessor s h p (processor p) move) := by
  have hserving := ha.serving p
  have hwork := ha.work p
  have hothers := ha.others (p := p)
  generalize processor p = pc at hstep hserving hwork hothers ⊢
  cases processorGoes_of_step hstep with
  | found =>
    refine ha.scan ?_ rfl (sameData_words s)
    cases config.hostReclaim with
    | true => rfl
    | false => rfl
  | scan | bump => exact ha.scan rfl rfl (sameData_words s)
  | claim now hstate =>
    simp only [recordProcessor, if_pos hstate]
    cases config.hostReclaim with
    | true => exact ha.claim hstate rfl (fun _ => trivial)
    | false => exact ha.claim hstate rfl (fun _ => trivial)
  | missed now hstate =>
    simp only [recordProcessor, if_neg hstate]
    exact ha.scan rfl rfl (sameData_words s)
  | lease =>
    exact ha.proceed (hserving rfl) (hothers rfl) rfl rfl rfl rfl rfl rfl rfl
      (fun _ _ => trivial)
  | refuse now hsize =>
    refine ha.proceed (hserving rfl) (hothers rfl) rfl rfl rfl rfl rfl rfl rfl ?_
    intro r hr
    refine A.refusal h r _ s.respBuffer (.request ?_)
    rw [← (ha.carried (hserving rfl).2 hr).1]
    exact hsize
  | size =>
    exact ha.proceed (hserving rfl) (hothers rfl) rfl rfl rfl rfl rfl rfl rfl
      (fun r hr => (ha.carried (hserving rfl).2 hr).1)
  | call reqSize now =>
    refine ha.proceed (hserving rfl) (hothers rfl) rfl rfl rfl rfl rfl rfl rfl ?_
    intro r hr
    refine ⟨hwork r hr, ?_⟩
    simp only [recordProcessor, Function.update_self]
    refine ⟨?_, ha.typed (.inr (hserving rfl).2) r hr, (by intro _ h; cases h)⟩
    have hpos := hr.length_pos
    rw [(hserving rfl).1]
    omega
  | reads msgType reqSize =>
    refine ha.proceed (hserving rfl) (hothers rfl) rfl rfl rfl rfl rfl rfl rfl ?_
    intro r hr
    obtain ⟨hsize, hrequest, htype, hviews⟩ := hwork r hr
    refine ⟨hsize, ?_⟩
    simp only [recordProcessor, Function.update_self]
    refine ⟨hrequest, htype, ?_⟩
    intro view hview
    cases hview with
    | head =>
      rw [hsize]
      exact (ha.carried (hserving rfl).2 hr).2
    | tail _ hold => exact hviews view hold
  | writes =>
    exact ha.proceed (hserving rfl) (hothers rfl) rfl rfl rfl rfl rfl rfl rfl hwork
  | returns msgType reqSize respSize =>
    refine ha.proceed (hserving rfl) (hothers rfl) rfl rfl rfl rfl rfl rfl rfl ?_
    intro r hr
    obtain ⟨_, hrequest, htype, hviews⟩ := hwork r hr
    exact AnswerRule.accepts_return List.mem_cons_self hrequest htype hviews
      (ha.typed (.inr (hserving rfl).2) r hr)
  | lock writes now hstate =>
    refine ha.serve (.inr (.inl hstate)) (hothers rfl) rfl rfl rfl
      (fun _ => ⟨(hserving rfl).1, rfl⟩) ?_ ?_ (by intro h; cases h)
    · rintro (hs | hs)
      · cases hs
      · cases hs
    · intro r hr
      have hanswer : answerAfter { s with state := .done } writes = answerAfter s writes :=
        answerAfter_congr writes rfl rfl rfl
      simp only [AnswerRule.Work, hanswer]
      exact hwork r hr
  | lost writes now hstate => exact absurd (hserving rfl).2 hstate
  | written => exact ha.hold (hserving rfl) (hothers rfl) rfl rfl rfl rfl hwork
  | write w writes now =>
    obtain ⟨hstate, hsize, hbuffer⟩ := w.apply_frame s
    refine ha.hold (hserving rfl) (hothers rfl) rfl hstate hsize hbuffer ?_
    simp only [AnswerRule.Work, hbuffer]
    exact hwork
  | publish now hstate =>
    refine ha.serve (.inr (.inr hstate)) (hothers rfl) rfl rfl rfl (by intro h; cases h) ?_
      (fun _ _ => trivial) ?_
    · rintro (hs | hs)
      · cases hs
      · cases hs
    · exact fun _ r hr => hwork r hr
  | withdrawn now hstate => exact absurd (hserving rfl).2 hstate

theorem mine_recordProcessor (s : Slot) (h : GuestTraffic Tid Pid) (p : Pid) (pc : ProcessorPc)
    (move : ProcessorMove) : (recordProcessor s h p pc move).mine = h.mine := by
  fun_cases recordProcessor s h p pc move <;> rfl

theorem requests_recordProcessor (s : Slot) (h : GuestTraffic Tid Pid) (p : Pid)
    (pc : ProcessorPc) (move : ProcessorMove) :
    (recordProcessor s h p pc move).requests = h.requests := by
  fun_cases recordProcessor s h p pc move <;> rfl

/-- While the slot is not in the host's hands, and no request waits, the processors
leave everything but the generation as it is. -/
theorem processor_looks {config : GuestConfig} {p : Pid} {pc' : ProcessorPc}
    {move : ProcessorMove} (hserved : (processor p).served = false)
    (hready : s.state ≠ .reqReady)
    (hstep : processorStep config s (processor p) move = some (s', pc')) :
    s'.state = s.state ∧ SameData s s' ∧ s'.activeWait = s.activeWait ∧
      recordProcessor s h p (processor p) move = h := by
  generalize processor p = pc at hstep hserved ⊢
  cases pc with
  | scanning =>
    cases move with
    | advance now =>
      simp only [processorStep, if_neg hready] at hstep
      cases hstep
      exact ⟨rfl, sameData_words s, rfl, rfl⟩
    | _ => cases hstep
  | bumpGen =>
    cases move with
    | advance now =>
      cases hstep
      exact ⟨rfl, sameData_words s, rfl, rfl⟩
    | _ => cases hstep
  | claim =>
    cases move with
    | advance now =>
      simp only [processorStep, if_neg hready] at hstep
      cases hstep
      refine ⟨rfl, sameData_words s, rfl, ?_⟩
      simp only [recordProcessor, if_neg hready]
    | _ => cases hstep
  | _ => cases hserved

end

end ShmIpc.Slots
