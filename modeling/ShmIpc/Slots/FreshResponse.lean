import ShmIpc.Slots.Traffic

/-!
No stale response on a host slot with a single caller. The slot carries the
latest request from its publication until the host parks it again, so what the
worker reads while its claim is in force is that request, and a response that
passes the publish lock answers it. A worker whose claim was stolen may go on with
anything; its response does not pass the lock.
-/

namespace ShmIpc.Slots

open Library

def Current (h : Traffic) (r : Request) : Prop := h.requests.getLast? = some r

/-- The answer is one to the request the worker has taken. -/
inductive Settled (h : Traffic) (r : Request) (answer : Int × MsgType × List UInt8) : Prop
  | error (htype : answer.2.1 = .systemError)
  | worker (htype : r.msgType = .shutdown ∨ r.msgType = .heartbeatReq) (hsize : answer.1 = 0)
  | handler (run : HandlerRun) (hmem : run ∈ h.runs) (hrequest : run.request + 1 = h.taken)
      (htype : run.msgType = r.msgType) (hviews : ∀ view ∈ run.views, view = r.data)
      (hanswer : run.answer = some answer)

/-- What the worker has gathered about the current request, if its claim is in force. -/
def Work (h : Traffic) (r : Request) (s : Slot) : WorkerPc → Prop
  | .loadReqSize msgType => s.state = .guestBusy → msgType = r.msgType
  | .handling msgType reqSize => s.state = .guestBusy → msgType = r.msgType ∧ reqSize = r.size ∧
      ∀ run ∈ h.runs.head?, ∀ view ∈ run.views, view = r.data
  | .lock writes _ => s.state = .guestBusy → Settled h r (answerAfter s writes)
  | .write writes _ => s.state = .done → Settled h r (answerAfter s writes)
  | .publish _ => s.state = .done → Settled h r (answerAfter s [])
  | _ => True

/-- What the host thread has already stored of its request. -/
def Armed (s : Slot) : HostPc → Prop
  | .sending call .storeMsgType => s.reqSize = call.size
  | .sending call (.storeMsgSeq) | .sending call (.storeNextSeq _)
  | .sending call (.storeLease _) | .sending call (.raiseActiveWait _)
  | .sending call (.storeReqReady _) => s.reqSize = call.size ∧ s.msgType = call.msgType
  | _ => True

/-- The response in the slot answers the request of the current call, and the
worker has finished with it. -/
structure Consumes (h : Traffic) (s : Slot) (w : WorkerPc) : Prop where
  mine : h.mine + 1 = h.requests.length
  taken : h.taken = h.requests.length
  unserved : w.served = false
  settled : ∃ r, Current h r ∧ Settled h r (answerAfter s [])

def Caller (h : Traffic) (s : Slot) (w : WorkerPc) : HostPc → Prop
  | .inFlight _ | .sending _ .reraiseActiveWait | .sending _ (.waiting _) | .sending _ (.park _)
  | .sending _ (.dropActiveWait _ false) => h.mine + 1 = h.requests.length
  | .sending _ (.dropActiveWait _ true) | .sending _ (.checkSeq _) | .sending _ .checkType =>
    Consumes h s w
  | .sending _ .loadRespSize => Consumes h s w ∧ s.msgType ≠ .systemError
  | .sending _ (.copyResponse respSize) =>
    Consumes h s w ∧ s.msgType ≠ .systemError ∧ respSize = s.respSize
  | .sending _ (.storeFree result) => ∀ bytes, result = .response bytes →
      w.served = false ∧ ∃ r, h.requests[h.mine]? = some r ∧ Copied h r bytes
  | _ => True

/-- The claim is taken and the handler has not been called for it. -/
def WorkerPc.unstarted : WorkerPc → Bool
  | .storeLease | .loadMsgType | .loadReqSize _ => true
  | _ => false

structure Fresh (s : Slot) (p : HostPc) (w : WorkerPc) (h : Traffic) : Prop where
  taken_le : h.taken ≤ h.requests.length
  unclaimed : s.state = .reqReady → h.taken < h.requests.length
  claimed : s.state = .guestBusy ∨ s.state = .done ∨ s.state = .respReady →
    h.taken = h.requests.length
  served : w.served = true → 0 < h.taken ∧ s.state ≠ .respReady
  below : ∀ run ∈ h.runs, run.request < h.taken
  nodup : (h.runs.map HandlerRun.request).Nodup
  unstarted : w.unstarted = true → ∀ run ∈ h.runs, run.request + 1 < h.taken
  started : ∀ msgType reqSize, w = .handling msgType reqSize → ∃ run runs,
    h.runs = run :: runs ∧ run.request + 1 = h.taken ∧ run.msgType = msgType
  carries : Phase.awaiting.Allows Cpp.tryClaimSlot s.state → ∃ r, Current h r ∧ s.reqSize = r.size ∧
    sized s.reqBuffer r.size = r.data
  typed : s.state = .reqReady ∨ s.state = .guestBusy → ∀ r, Current h r → s.msgType = r.msgType
  work : ∀ r, Current h r → Work h r s w
  answered : s.state = .respReady → ∀ r, Current h r → Settled h r (answerAfter s [])
  armed : Armed s p
  caller : Caller h s w p

theorem armed_of_not_busy {s s' : Slot} {p : HostPc}
    (hallows : p.phase.Allows Cpp.tryClaimSlot s.state)
    (hbusy : s.state ≠ .busy) : Armed s' p := by
  cases p with
  | sending call pc =>
    cases pc with
    | storeMsgType | storeMsgSeq | storeNextSeq | storeLease | raiseActiveWait | storeReqReady =>
      exact absurd hallows hbusy
    | _ => trivial
  | _ => trivial

theorem armed_congr {s s' : Slot} {p : HostPc} (h : Armed s p) (hsize : s'.reqSize = s.reqSize)
    (htype : s'.msgType = s.msgType) : Armed s' p := by
  cases p with
  | sending call pc =>
    cases pc with
    | storeMsgType => exact hsize.trans h
    | storeMsgSeq | storeNextSeq | storeLease | raiseActiveWait | storeReqReady =>
      exact ⟨hsize.trans h.1, htype.trans h.2⟩
    | _ => trivial
  | _ => trivial

/-- A caller that is not consuming a response relies on its published request only;
while the worker serves a request no caller consumes one. -/
theorem caller_of_elsewhere {h h' : Traffic} {s s' : Slot} {w w' : WorkerPc} {p : HostPc}
    (helse : w.served = true ∨ p.phase ≠ .consuming) (hcaller : Caller h s w p)
    (hmine : h'.mine = h.mine) (hrequests : h'.requests = h.requests) : Caller h' s' w' p := by
  have hnot : ∀ P : Prop, p.phase = .consuming → w.served = false → P := by
    intro P hphase hun
    cases helse with
    | inl hserved => rw [hserved] at hun; cases hun
    | inr hne => exact absurd hphase hne
  have hkept : h.mine + 1 = h.requests.length → h'.mine + 1 = h'.requests.length := by
    rw [hmine, hrequests]
    exact id
  cases p with
  | sending call pc =>
    cases pc with
    | reraiseActiveWait | waiting | park => exact hkept hcaller
    | dropActiveWait seq ready =>
      cases ready with
      | false => exact hkept hcaller
      | true => exact hnot _ rfl (Consumes.unserved hcaller)
    | checkSeq | checkType => exact hnot _ rfl (Consumes.unserved hcaller)
    | loadRespSize | copyResponse => exact hnot _ rfl hcaller.1.unserved
    | storeFree result =>
      intro bytes hresult
      exact hnot _ rfl (hcaller bytes hresult).1
    | _ => trivial
  | inFlight call => exact hkept hcaller
  | _ => trivial

theorem consumes_congr {h : Traffic} {s s' : Slot} {w w' : WorkerPc} (hc : Consumes h s w)
    (hw : w'.served = false) (hanswer : answerAfter s' [] = answerAfter s []) :
    Consumes h s' w' :=
  ⟨hc.mine, hc.taken, hw, hanswer ▸ hc.settled⟩

theorem caller_congr {h : Traffic} {s s' : Slot} {w w' : WorkerPc} {p : HostPc}
    (hcaller : Caller h s w p) (hw : w'.served = false)
    (hanswer : answerAfter s' [] = answerAfter s []) : Caller h s' w' p := by
  have htype : s'.msgType = s.msgType := congrArg (fun a => a.2.1) hanswer
  have hsize : s'.respSize = s.respSize := congrArg (fun a => a.1) hanswer
  cases p with
  | sending call pc =>
    cases pc with
    | dropActiveWait seq ready =>
      cases ready with
      | false => exact hcaller
      | true => exact consumes_congr hcaller hw hanswer
    | checkSeq | checkType => exact consumes_congr hcaller hw hanswer
    | loadRespSize => exact ⟨consumes_congr hcaller.1 hw hanswer, htype ▸ hcaller.2⟩
    | copyResponse respSize =>
      exact ⟨consumes_congr hcaller.1 hw hanswer, htype ▸ hcaller.2.1, hsize ▸ hcaller.2.2⟩
    | storeFree result =>
      intro bytes hresult
      exact ⟨hw, (hcaller bytes hresult).2⟩
    | _ => exact hcaller
  | _ => exact hcaller

theorem work_of_unserved {h : Traffic} {r : Request} {s : Slot} {w : WorkerPc}
    (hw : w.served = false) : Work h r s w := by
  cases w with
  | loadReqSize | handling | lock | write | publish => cases hw
  | _ => trivial

theorem work_of_state {h : Traffic} {r : Request} {s : Slot} {w : WorkerPc}
    (hbusy : s.state ≠ .guestBusy) (hdone : s.state ≠ .done) : Work h r s w := by
  cases w with
  | loadReqSize | handling | lock => exact fun h => absurd h hbusy
  | write | publish => exact fun h => absurd h hdone
  | _ => trivial

theorem unserved_not_unstarted {w : WorkerPc} (h : w.served = false) : w.unstarted = false := by
  cases w with
  | storeLease | loadMsgType | loadReqSize => cases h
  | _ => rfl

section

variable {s : Slot} {p : HostPc} {h : Traffic}

theorem Fresh.idle {w w' : WorkerPc} (gen : Nat) (hf : Fresh s p w h)
    (hw' : w'.served = false) : Fresh { s with gen := gen } p w' h where
  taken_le := hf.taken_le
  unclaimed := hf.unclaimed
  claimed := hf.claimed
  served hs := by rw [hw'] at hs; cases hs
  below := hf.below
  nodup := hf.nodup
  unstarted hu := by rw [unserved_not_unstarted hw'] at hu; cases hu
  started _ _ heq := by rw [heq] at hw'; cases hw'
  carries := hf.carries
  typed := hf.typed
  work _ _ := work_of_unserved hw'
  answered := hf.answered
  armed := armed_congr hf.armed rfl rfl
  caller := caller_congr hf.caller hw' rfl

theorem Fresh.drop {w w' : WorkerPc} (hf : Fresh s p w h) (hw : w.served = true)
    (hw' : w'.served = false) : Fresh s p w' h where
  taken_le := hf.taken_le
  unclaimed := hf.unclaimed
  claimed := hf.claimed
  served hs := by rw [hw'] at hs; cases hs
  below := hf.below
  nodup := hf.nodup
  unstarted hu := by rw [unserved_not_unstarted hw'] at hu; cases hu
  started _ _ heq := by rw [heq] at hw'; cases hw'
  carries := hf.carries
  typed := hf.typed
  work _ _ := work_of_unserved hw'
  answered := hf.answered
  armed := hf.armed
  caller := caller_of_elsewhere (.inl hw) hf.caller rfl rfl

theorem Fresh.claim {w' : WorkerPc} (hf : Fresh s p .claim h)
    (hallows : p.phase.Allows Cpp.tryClaimSlot s.state)
    (hstate : s.state = .reqReady) (hw' : w' = .loadMsgType ∨ w' = .storeLease) :
    Fresh { s with state := .guestBusy } p w' { h with taken := h.requests.length } where
  taken_le := Nat.le_refl _
  unclaimed hs := by cases hs
  claimed _ := rfl
  served _ := ⟨Nat.lt_of_le_of_lt (Nat.zero_le _) (hf.unclaimed hstate), nofun⟩
  below run hrun := Nat.lt_of_lt_of_le (hf.below run hrun) hf.taken_le
  nodup := hf.nodup
  unstarted _ run hrun := by
    have hbelow := hf.below run hrun
    have hunclaimed := hf.unclaimed hstate
    show run.request + 1 < h.requests.length
    omega
  started _ _ heq := by
    cases hw' with
    | inl hw' => rw [hw'] at heq; cases heq
    | inr hw' => rw [hw'] at heq; cases heq
  carries _ := hf.carries (.inl hstate)
  typed _ := hf.typed (.inl hstate)
  work _ _ := by
    cases hw' with
    | inl hw' => rw [hw']; trivial
    | inr hw' => rw [hw']; trivial
  answered hs := by cases hs
  armed := armed_of_not_busy hallows (by rw [hstate]; nofun)
  caller := by
    refine caller_of_elsewhere (.inr ?_) hf.caller rfl rfl
    intro hphase
    rw [hphase, hstate] at hallows
    cases hallows

/-- The worker goes on with the request it has claimed: the slot keeps its state and
the request, and the requests are the same. -/
theorem Fresh.serve {w w' : WorkerPc} {s' : Slot} {runs : List HandlerRun} (hf : Fresh s p w h)
    (hw : w.served = true) (hstate : s'.state = s.state) (hsize : s'.reqSize = s.reqSize)
    (hbuffer : s'.reqBuffer = s.reqBuffer) (htype : s'.msgType = s.msgType)
    (hbelow : ∀ run ∈ runs, run.request < h.taken)
    (hnodup : (runs.map HandlerRun.request).Nodup)
    (hunstarted : w'.unstarted = true → ∀ run ∈ runs, run.request + 1 < h.taken)
    (hstarted : ∀ msgType reqSize, w' = .handling msgType reqSize → ∃ run rest,
      runs = run :: rest ∧ run.request + 1 = h.taken ∧ run.msgType = msgType)
    (hwork : ∀ r, Current h r → Work { h with runs := runs } r s' w') :
    Fresh s' p w' { h with runs := runs } where
  taken_le := hf.taken_le
  unclaimed hs := hf.unclaimed (hstate ▸ hs)
  claimed hs := hf.claimed (hstate ▸ hs)
  served _ := hstate ▸ hf.served hw
  below := hbelow
  nodup := hnodup
  unstarted := hunstarted
  started := hstarted
  carries hs := by
    rw [hsize, hbuffer]
    exact hf.carries (hstate ▸ hs)
  typed hs := by
    rw [htype]
    exact hf.typed (hstate ▸ hs)
  work := hwork
  answered hs := absurd (hstate ▸ hs) (hf.served hw).2
  armed := armed_congr hf.armed hsize htype
  caller := caller_of_elsewhere (.inl hw) hf.caller rfl rfl

theorem Fresh.proceed {w w' : WorkerPc} {s' : Slot} (hf : Fresh s p w h) (hw : w.served = true)
    (hstate : s'.state = s.state) (hsize : s'.reqSize = s.reqSize)
    (hbuffer : s'.reqBuffer = s.reqBuffer) (htype : s'.msgType = s.msgType)
    (hunstarted : w'.unstarted = true → w.unstarted = true)
    (hstarted : ∀ msgType reqSize, w' = .handling msgType reqSize →
      w = .handling msgType reqSize)
    (hwork : ∀ r, Current h r → Work h r s' w') : Fresh s' p w' h :=
  hf.serve hw hstate hsize hbuffer htype hf.below hf.nodup
    (fun hu => hf.unstarted (hunstarted hu))
    (fun msgType reqSize heq => hf.started msgType reqSize (hstarted msgType reqSize heq)) hwork

theorem Fresh.begin {msgType : MsgType} (hf : Fresh s p (.loadReqSize msgType) h) :
    Fresh s p (.handling msgType s.reqSize)
      { h with runs := ⟨h.taken - 1, msgType, [], none⟩ :: h.runs } := by
  have hpos : 0 < h.taken := (hf.served rfl).1
  have hunstarted := hf.unstarted rfl
  refine hf.serve rfl rfl rfl rfl rfl ?_ ?_ nofun ?_ ?_
  · intro run hrun
    cases hrun with
    | head => exact Nat.sub_lt hpos Nat.one_pos
    | tail _ hrun => exact hf.below run hrun
  · refine List.nodup_cons.mpr ⟨?_, hf.nodup⟩
    intro hmem
    obtain ⟨run, hrun, heq⟩ := List.mem_map.mp hmem
    have hlt := hunstarted run hrun
    have hlast : run.request = h.taken - 1 := heq
    omega
  · intro _ _ heq
    cases heq
    exact ⟨_, h.runs, rfl, Nat.sub_add_cancel hpos, rfl⟩
  · intro r hr hguest
    obtain ⟨r', hr', hsize, hdata⟩ := hf.carries (.inr (.inl hguest))
    obtain rfl : r = r' := Option.some.inj (hr.symm.trans hr')
    refine ⟨hf.work r hr hguest, hsize, ?_⟩
    intro run hrun view hview
    cases hrun
    cases hview

theorem Fresh.update {msgType : MsgType} {reqSize : Int} {w' : WorkerPc}
    (change : HandlerRun → HandlerRun) (hf : Fresh s p (.handling msgType reqSize) h)
    (hrequest : ∀ run, (change run).request = run.request)
    (htype : ∀ run, (change run).msgType = run.msgType) (hunstarted : w'.unstarted = false)
    (hstarted : ∀ msgType' reqSize', w' = .handling msgType' reqSize' → msgType' = msgType)
    (hwork : ∀ r run rest, Current h r → h.runs = run :: rest → run.request + 1 = h.taken →
      run.msgType = msgType → Work { h with runs := change run :: rest } r s w') :
    Fresh s p w' { h with runs := h.runs.modifyHead change } := by
  obtain ⟨run, rest, hruns, hlast, hrunType⟩ := hf.started msgType reqSize rfl
  have hbelow := hf.below
  have hnodup := hf.nodup
  rw [hruns] at hbelow hnodup ⊢
  refine hf.serve rfl rfl rfl rfl rfl ?_ ?_ ?_ ?_ ?_
  · intro run' hrun'
    cases hrun' with
    | head => rw [hrequest run]; exact hbelow run List.mem_cons_self
    | tail _ hrun' => exact hbelow run' (List.mem_cons_of_mem run hrun')
  · show ((change run).request :: rest.map HandlerRun.request).Nodup
    rw [hrequest run]
    exact hnodup
  · intro hu
    rw [hunstarted] at hu
    cases hu
  · intro msgType' reqSize' heq
    refine ⟨change run, rest, rfl, ?_, ?_⟩
    · rw [hrequest run]
      exact hlast
    · rw [htype run, hrunType]
      exact (hstarted msgType' reqSize' heq).symm
  · intro r hr
    exact hwork r run rest hr hruns hlast hrunType

theorem Fresh.reads {msgType : MsgType} {reqSize : Int}
    (hf : Fresh s p (.handling msgType reqSize) h) :
    Fresh s p (.handling msgType reqSize) { h with runs := h.runs.modifyHead fun run =>
      { run with views := sized s.reqBuffer reqSize :: run.views } } := by
  refine hf.update _ (fun _ => rfl) (fun _ => rfl) rfl ?_ ?_
  · intro _ _ heq
    cases heq
    rfl
  · intro r run rest hr hruns hlast hrunType hguest
    obtain ⟨htype, hsize, hviews⟩ := hf.work r hr hguest
    obtain ⟨r', hr', _, hdata⟩ := hf.carries (.inr (.inl hguest))
    obtain rfl : r = r' := Option.some.inj (hr.symm.trans hr')
    refine ⟨htype, hsize, ?_⟩
    intro run' hrun' view hview
    cases hrun'
    cases hview with
    | head => rw [hsize]; exact hdata
    | tail _ hview => exact hviews run (by rw [hruns]; rfl) view hview

theorem Fresh.returns {msgType : MsgType} {reqSize : Int} (respSize : Int) (respType : MsgType)
    (hf : Fresh s p (.handling msgType reqSize) h) :
    Fresh s p (.lock [.respSize respSize, .msgType respType] false)
      { h with runs := h.runs.modifyHead fun run =>
        { run with answer := some (respSize, respType, s.respBuffer) } } := by
  refine hf.update _ (fun _ => rfl) (fun _ => rfl) rfl nofun ?_
  intro r run rest hr hruns hlast hrunType hguest
  obtain ⟨htype, _, hviews⟩ := hf.work r hr hguest
  exact .handler _ List.mem_cons_self hlast (hrunType.trans htype)
    (fun view hview => hviews run (by rw [hruns]; rfl) view hview) rfl

theorem Fresh.lock {writes : List HeaderWrite} {exits : Bool} (hf : Fresh s p (.lock writes exits) h)
    (hallows : p.phase.Allows Cpp.tryClaimSlot s.state) (hstate : s.state = .guestBusy) :
    Fresh { s with state := .done } p (.write writes exits) h where
  taken_le := hf.taken_le
  unclaimed hs := by cases hs
  claimed _ := hf.claimed (.inl hstate)
  served _ := ⟨(hf.served rfl).1, nofun⟩
  below := hf.below
  nodup := hf.nodup
  unstarted := nofun
  started := nofun
  carries _ := hf.carries (.inr (.inl hstate))
  typed hs := by cases hs with
    | inl hs => cases hs
    | inr hs => cases hs
  work r hr _ := by
    have hanswer : answerAfter { s with state := .done } writes = answerAfter s writes :=
      answerAfter_congr writes rfl rfl rfl
    rw [hanswer]
    exact hf.work r hr hstate
  answered hs := by cases hs
  armed := armed_of_not_busy hallows (by rw [hstate]; nofun)
  caller := caller_of_elsewhere (.inl rfl) hf.caller rfl rfl

theorem Fresh.write {w : HeaderWrite} {writes : List HeaderWrite} {exits : Bool}
    (hf : Fresh s p (.write (w :: writes) exits) h)
    (hallows : p.phase.Allows Cpp.tryClaimSlot s.state)
    (hstate : s.state = .done) : Fresh (w.apply s) p (.write writes exits) h := by
  obtain ⟨hw, hsize, hbuffer⟩ := w.apply_frame s
  refine ⟨hf.taken_le, ?_, ?_, ?_, hf.below, hf.nodup, nofun, nofun, ?_, ?_, ?_, ?_,
    armed_of_not_busy hallows (by rw [hstate]; nofun),
    caller_of_elsewhere (.inl rfl) hf.caller rfl rfl⟩
  · rw [hw]
    exact hf.unclaimed
  · rw [hw]
    exact hf.claimed
  · rw [hw]
    exact fun _ => hf.served rfl
  · rw [hw, hsize, hbuffer]
    exact hf.carries
  · rw [hw, hstate]
    intro hs
    cases hs with
    | inl hs => cases hs
    | inr hs => cases hs
  · intro r hr _
    exact hf.work r hr hstate
  · rw [hw, hstate]
    nofun

theorem Fresh.publish {exits : Bool} (hf : Fresh s p (.publish exits) h)
    (hallows : p.phase.Allows Cpp.tryClaimSlot s.state) (hstate : s.state = .done) :
    Fresh { s with state := .respReady } p (.afterAnswer exits) h where
  taken_le := hf.taken_le
  unclaimed hs := by cases hs
  claimed _ := hf.claimed (.inr (.inl hstate))
  served hs := by rw [afterAnswer_unserved] at hs; cases hs
  below := hf.below
  nodup := hf.nodup
  unstarted hu := by rw [unserved_not_unstarted (afterAnswer_unserved exits)] at hu; cases hu
  started _ _ heq := by
    have hun := afterAnswer_unserved exits
    rw [heq] at hun
    cases hun
  carries _ := hf.carries (.inr (.inr (.inl hstate)))
  typed hs := by cases hs with
    | inl hs => cases hs
    | inr hs => cases hs
  work _ _ := work_of_unserved (afterAnswer_unserved exits)
  answered _ r hr := hf.work r hr hstate
  armed := armed_of_not_busy hallows (by rw [hstate]; nofun)
  caller := caller_of_elsewhere (.inl rfl) hf.caller rfl rfl

theorem Fresh.reply {w : WorkerPc} {writes : List HeaderWrite} {exits : Bool} (hf : Fresh s p w h)
    (hw : w.served = true)
    (hsettled : s.state = .guestBusy → ∀ r, Current h r → Settled h r (answerAfter s writes)) :
    Fresh s p (.lock writes exits) h :=
  hf.proceed hw rfl rfl rfl rfl nofun nofun (fun r hr hguest => hsettled hguest r hr)

end

theorem fresh_worker {layout : Layout} {s s' : Slot} {p : HostPc} {w w' : WorkerPc} {h : Traffic}
    {move : WorkerMove} (hf : Fresh s p w h) (hallows : p.phase.Allows Cpp.tryClaimSlot s.state)
    (hlocked : w.locked = true → s.state = .done)
    (hstep : workerStep layout s w move = some (s', w')) :
    Fresh s' p w' (recordWorker s h w move) := by
  cases workerGoes_of_step hstep with
  | found =>
    refine hf.idle s.gen ?_
    split
    · rfl
    · rfl
  | poll | close => exact hf.idle s.gen rfl
  | bump => exact hf.idle _ rfl
  | claim now hstate =>
    simp only [recordWorker, if_pos hstate]
    refine hf.claim hallows hstate ?_
    split
    · exact .inl rfl
    · exact .inr rfl
  | missed now hstate =>
    simp only [recordWorker, if_neg hstate]
    exact hf.idle s.gen rfl
  | lease =>
    exact hf.proceed rfl rfl rfl rfl rfl (fun _ => rfl) (by intro _ _ h; cases h)
      (fun _ _ => trivial)
  | shutdown now htype =>
    exact hf.reply rfl fun hguest r hr =>
      .worker (.inl ((hf.typed (.inr hguest) r hr).symm.trans htype)) rfl
  | heartbeat now htype =>
    exact hf.reply rfl fun hguest r hr =>
      .worker (.inr ((hf.typed (.inr hguest) r hr).symm.trans htype)) rfl
  | request =>
    exact hf.proceed rfl rfl rfl rfl rfl (fun _ => rfl) (by intro _ _ h; cases h)
      (fun r hr hguest => hf.typed (.inr hguest) r hr)
  | call msgType now hfits =>
    simp only [recordWorker, if_pos hfits]
    exact hf.begin
  | refuse msgType now hfits =>
    simp only [recordWorker, if_neg hfits]
    exact hf.reply rfl fun _ _ _ => .error rfl
  | reads => exact hf.reads
  | writes =>
    exact hf.proceed rfl rfl rfl rfl rfl (by intro h; cases h) (fun _ _ heq => heq) hf.work
  | returns msgType reqSize respSize respType => exact hf.returns respSize respType
  | panics =>
    exact hf.proceed rfl rfl rfl rfl rfl (by intro h; cases h) (by intro _ _ h; cases h)
      (fun _ _ => trivial)
  | recover => exact hf.reply rfl fun _ _ _ => .error rfl
  | stolen | closeLate => exact hf.drop rfl rfl
  | lock writes exits now hstate => exact hf.lock hallows hstate
  | lost writes exits | withdrawn exits => exact hf.drop rfl (afterAnswer_unserved exits)
  | write => exact hf.write hallows (hlocked rfl)
  | written =>
    exact hf.proceed rfl rfl rfl rfl rfl (by intro h; cases h) (by intro _ _ h; cases h) hf.work
  | publish exits now hstate => exact hf.publish hallows hstate

end ShmIpc.Slots
