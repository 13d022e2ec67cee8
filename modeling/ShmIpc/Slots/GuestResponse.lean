import ShmIpc.Slots.Account

/-!
The account of a guest slot on the fast path, with what its goroutines know. What
stands in the response area when the slot is at `respReady` answers the latest
request, so a goroutine that reads a response reads the answer to its own request.
-/

namespace ShmIpc.Slots

open Library

variable {Tid Pid : Type}

/-- The answer is one to the latest request. -/
inductive GuestSettled (h : GuestTraffic Tid Pid) (r : Request)
    (answer : Int × MsgType × List UInt8) : Prop
  | error (htype : answer.2.1 = .systemError)
  | handler (run : GuestRun) (hmem : run ∈ h.runs)
      (hrequest : run.request + 1 = h.requests.length) (htype : run.msgType = r.msgType)
      (hviews : ∀ view ∈ run.views, view = r.data)
      (hanswer : run.answer = some (answer.1, answer.2.2))

/-- What a processor has gathered about the latest request. -/
def GuestWork (h : GuestTraffic Tid Pid) (p : Pid) (r : Request) (s : Slot) : ProcessorPc → Prop
  | .loadMsgType reqSize => reqSize = r.size
  | .handling _ reqSize => reqSize = r.size ∧ (h.current p).request + 1 = h.requests.length ∧
      (h.current p).msgType = r.msgType ∧ ∀ view ∈ (h.current p).views, view = r.data
  | .lock writes | .write writes => GuestSettled h r (answerAfter s writes)
  | .publish => GuestSettled h r (answerAfter s [])
  | _ => True

/-- The request stands in the slot as the call made it. -/
def Stored (s : Slot) (call : GuestCall) : Prop :=
  s.reqSize = call.reqSize ∧ sized s.reqBuffer call.reqSize = call.data

/-- The latest request is the one of the goroutine's call. -/
def Mine (h : GuestTraffic Tid Pid) (t : Tid) (call : GuestCall) : Prop :=
  h.requests[h.mine t]? = some call.request ∧ h.mine t + 1 = h.requests.length

/-- What a goroutine on the fast path knows where it stands. -/
def GuestCaller (h : GuestTraffic Tid Pid) (s : Slot) (t : Tid) : GuestPc → Prop
  | .sending call .copyRequest => call.data.length ≤ s.reqBuffer.length
  | .sending call .storeReqSize => sized s.reqBuffer call.reqSize = call.data
  | .sending call .storeMsgType => Stored s call
  | .sending call .storeMsgSeq | .sending call (.storeNextSeq _)
  | .sending call (.raiseActiveWait _) | .sending call (.storeReqReady _) =>
    Stored s call ∧ s.msgType = call.msgType
  | .sending call (.waiting _) | .sending call (.checkSeq true _)
  | .sending call (.checkType true) => Mine h t call
  | .sending call (.loadRespSize true) => Mine h t call ∧ s.msgType ≠ .systemError
  | .sending call (.copyResponse true respSize) =>
    Mine h t call ∧ s.msgType ≠ .systemError ∧ respSize = s.respSize
  | .sending call (.clearActiveWait result) | .sending call (.release true result) =>
    ∀ bytes, result = .response bytes → OwnResponse h t call bytes
  | .sending _ (.bumpGen _) | .sending _ (.consume _) | .sending _ (.storeLease _)
  | .sending _ (.dropActiveWait _ _) | .sending _ (.checkSeq false _)
  | .sending _ (.checkType false) | .sending _ (.loadRespSize false)
  | .sending _ (.copyResponse false _) | .sending _ (.release false _) => False
  | _ => True

structure Genuine (s : Slot) (guest : Tid → GuestPc) (processor : Pid → ProcessorPc)
    (h : GuestTraffic Tid Pid) : Prop where
  alone : ∀ p q, (processor p).served = true → (processor q).served = true → p = q
  serving : ∀ p, (processor p).served = true → h.taken p = h.requests.length ∧
    s.state = if (processor p).locked then .done else .busy
  carries : Phase.awaiting.Allows Go.tryClaimGuestSlot s.state → ∃ r, LastRequest h r ∧
    s.reqSize = r.size ∧ sized s.reqBuffer r.size = r.data
  typed : s.state = .reqReady ∨ s.state = .busy → ∀ r, LastRequest h r → s.msgType = r.msgType
  work : ∀ p r, LastRequest h r → GuestWork h p r s (processor p)
  answered : s.state = .respReady → ∀ r, LastRequest h r → GuestSettled h r (answerAfter s [])
  caller : ∀ t, GuestCaller h s t (guest t)

/-- A reply of type `systemError` is no response, whatever stands in it. -/
def settledRule : AnswerRule Tid Pid where
  accepts h r _ := GuestSettled h r
  refusal _ _ _ _ _ := .error rfl
  handler _ _ _ run _ _ hran :=
    .handler run hran.mem hran.request hran.msgType hran.views hran.answer

section

variable {s s' : Slot} {guest guest' : Tid → GuestPc} {processor : Pid → ProcessorPc}
  {h : GuestTraffic Tid Pid}

theorem work_settledRule {p : Pid} {r : Request} {pc : ProcessorPc} :
    settledRule.Work h p r s pc ↔ GuestWork h p r s pc := by
  cases pc with
  | _ => exact Iff.rfl

theorem Genuine.account (hg : Genuine s guest processor h) :
    Account settledRule s processor h :=
  ⟨hg.alone, hg.serving, hg.carries, hg.typed,
    fun p r hr => work_settledRule.mpr (hg.work p r hr), hg.answered⟩

theorem Account.genuine (ha : Account settledRule s processor h)
    (hcaller : ∀ t, GuestCaller h s t (guest t)) : Genuine s guest processor h :=
  ⟨ha.alone, ha.serving, ha.carries, ha.typed,
    fun p r hr => work_settledRule.mp (ha.work p r hr), ha.answered, hcaller⟩

theorem guestCaller_congr {t : Tid} {pc : GuestPc} (hsame : SameData s s')
    (hcaller : GuestCaller h s t pc) : GuestCaller h s' t pc := by
  cases pc with
  | sending call pc =>
    cases pc with
    | copyRequest | storeReqSize =>
      simp only [GuestCaller, hsame.reqBuffer]
      exact hcaller
    | storeMsgType => exact ⟨hsame.reqSize.trans hcaller.1, hsame.reqBuffer ▸ hcaller.2⟩
    | storeMsgSeq | storeNextSeq | raiseActiveWait | storeReqReady =>
      exact ⟨⟨hsame.reqSize.trans hcaller.1.1, hsame.reqBuffer ▸ hcaller.1.2⟩,
        hsame.msgType.trans hcaller.2⟩
    | loadRespSize fast =>
      cases fast with
      | true => exact ⟨hcaller.1, hsame.msgType ▸ hcaller.2⟩
      | false => exact hcaller
    | copyResponse fast respSize =>
      cases fast with
      | true => exact ⟨hcaller.1, hsame.msgType ▸ hcaller.2.1, hcaller.2.2.trans
          hsame.respSize.symm⟩
      | false => exact hcaller
    | checkSeq fast _ | checkType fast | release fast _ => cases fast with
      | true => exact hcaller
      | false => exact hcaller
    | _ => exact hcaller
  | _ => exact hcaller

/-- The traffic goes on without a new request of the goroutine. -/
structure Extends (h h' : GuestTraffic Tid Pid) (t : Tid) : Prop where
  mine : h'.mine t = h.mine t
  requests : ∀ (i : Nat) (r : Request), h.requests[i]? = some r → h'.requests[i]? = some r
  runs : ∀ run ∈ h.runs, run ∈ h'.runs

theorem OwnResponse.extend {h' : GuestTraffic Tid Pid} {t : Tid} {call : GuestCall}
    {bytes : List UInt8} (hext : Extends h h' t) (hown : OwnResponse h t call bytes) :
    OwnResponse h' t call bytes := by
  obtain ⟨hrequest, run, hmem, hnumber, hrest⟩ := hown
  refine ⟨?_, run, hext.runs run hmem, hnumber.trans hext.mine.symm, hrest⟩
  rw [hext.mine]
  exact hext.requests _ _ hrequest

theorem guestCaller_unowned {h' : GuestTraffic Tid Pid} {t : Tid} {pc : GuestPc}
    (hout : pc.phase.owns = false) (hext : Extends h h' t) (hcaller : GuestCaller h s t pc) :
    GuestCaller h' s' t pc := by
  cases pc with
  | sending call pc =>
    cases pc with
    | release fast result =>
      cases fast with
      | true => exact fun bytes hbytes => (hcaller bytes hbytes).extend hext
      | false => exact hcaller
    | checkSeq fast _ | checkType fast | loadRespSize fast | copyResponse fast _ =>
      cases fast with
      | true => cases hout
      | false => cases hout
    | dropActiveWait seq outcome => exact hcaller
    | _ => cases hout
  | _ => trivial

/-- While a request is in transit, the goroutine that waits for its answer relies on
nothing but the request. -/
theorem guestCaller_waiting {h' : GuestTraffic Tid Pid} {t : Tid} {pc : GuestPc}
    (hallows : pc.phase.Allows Go.tryClaimGuestSlot s.state)
    (hstate : s.state = .reqReady ∨ s.state = .busy ∨ s.state = .done)
    (hmine : h'.mine = h.mine) (hrequests : h'.requests = h.requests)
    (hcaller : GuestCaller h s t pc) : GuestCaller h' s' t pc := by
  have hnot : s.state ≠ .guestBusy ∧ s.state ≠ .respReady ∧ s.state ≠ .free := by
    obtain hs | hs | hs := hstate
    · rw [hs]; exact ⟨nofun, nofun, nofun⟩
    · rw [hs]; exact ⟨nofun, nofun, nofun⟩
    · rw [hs]; exact ⟨nofun, nofun, nofun⟩
  cases pc with
  | sending call pc =>
    cases pc with
    | waiting seq =>
      show Mine h' t call
      unfold Mine
      rw [hmine, hrequests]
      exact hcaller
    | checkSize | refuse => trivial
    | bumpGen | consume | storeLease | dropActiveWait => exact hcaller
    | checkSeq fast _ | checkType fast | loadRespSize fast | copyResponse fast _ =>
      cases fast with
      | true => exact absurd hallows hnot.2.1
      | false => exact hcaller
    | clearActiveWait => exact absurd hallows hnot.2.1
    | release fast result =>
      cases fast with
      | true =>
        obtain hs | hs | hs := hallows
        · exact absurd hs hnot.2.1
        · exact absurd hs hnot.1
        · exact absurd hs hnot.2.2
      | false => exact hcaller
    | _ => exact absurd hallows hnot.1
  | _ => trivial

theorem Mine.last {t : Tid} {call : GuestCall} (hmine : Mine h t call) :
    LastRequest h call.request := by
  unfold LastRequest
  rw [List.getLast?_eq_getElem?, ← hmine.2, Nat.add_sub_cancel]
  exact hmine.1

theorem ownResponse_of_settled {t : Tid} {call : GuestCall} {bytes : List UInt8}
    (hmine : Mine h t call) (htype : s.msgType ≠ .systemError)
    (hsettled : GuestSettled h call.request (answerAfter s []))
    (hbytes : bytes = sized s.respBuffer s.respSize) : OwnResponse h t call bytes := by
  cases hsettled with
  | error herror => exact absurd herror htype
  | handler run hmem hrequest hrunType hviews hanswer =>
    refine ⟨hmine.1, run, hmem, ?_, hrunType, hviews, _, _, hanswer, hbytes⟩
    have hlast := hmine.2
    omega

theorem guestCaller_send {config : GuestConfig} {t : Tid} {call : GuestCall} {pc : GuestSendPc}
    (now : Nat) (hfast : config.fastConsume = true) (hg : Genuine s guest processor h)
    (hpc : guest t = .sending call pc) (hpost : ∀ seq, pc ≠ .storeReqReady seq)
    (hallows : pc.phase.Allows Go.tryClaimGuestSlot s.state) :
    GuestCaller h (guestSendStep config now s call pc).1 t
      (.afterSend call (guestSendStep config now s call pc).2) := by
  have hcaller := hg.caller t
  rw [hpc] at hcaller
  have hfailed : ∀ {fast : Bool} {error : GuestError}, fast = true →
      GuestCaller h s t (.sending call (.releaseOwned fast (.failed error))) := by
    rintro fast error rfl
    exact nofun
  cases pc with
  | checkSize =>
    simp only [guestSendStep]
    split
    · trivial
    case isFalse hsize => exact Nat.le_of_not_lt hsize
  | copyRequest => exact call.sized_place s.reqBuffer hcaller
  | storeReqSize => exact ⟨rfl, hcaller⟩
  | storeMsgType => exact ⟨hcaller, rfl⟩
  | storeMsgSeq | storeNextSeq | raiseActiveWait => exact hcaller
  | storeReqReady seq => exact absurd rfl (hpost seq)
  | waiting seq =>
    simp only [guestSendStep, hfast, if_true]
    split
    · exact hcaller
    · exact hcaller
  | refuse => trivial
  | bumpGen | consume | storeLease | dropActiveWait => cases hcaller
  | checkSeq fast seq =>
    cases fast with
    | false => cases hcaller
    | true =>
      simp only [guestSendStep]
      split
      · exact hcaller
      · exact hfailed rfl
  | checkType fast =>
    cases fast with
    | false => cases hcaller
    | true =>
      simp only [guestSendStep]
      split
      · exact hfailed rfl
      case isFalse htype => exact ⟨hcaller, htype⟩
  | loadRespSize fast =>
    cases fast with
    | false => cases hcaller
    | true => exact ⟨hcaller.1, hcaller.2, rfl⟩
  | copyResponse fast respSize =>
    cases fast with
    | false => cases hcaller
    | true =>
      obtain ⟨hmine, htype, rfl⟩ := hcaller
      intro bytes hbytes
      exact ownResponse_of_settled hmine htype (hg.answered hallows _ hmine.last)
        (sized_of_readResponse hbytes)
  | clearActiveWait result => exact hcaller
  | release fast result => trivial

variable [DecidableEq Tid]

theorem Genuine.look {t : Tid} {pc' : GuestPc} (hg : Genuine s guest processor h)
    (hstate : s'.state = s.state) (hsame : SameData s s') (hcaller : GuestCaller h s' t pc') :
    Genuine s' (Function.update guest t pc') processor h :=
  (hg.account.look hstate hsame).genuine
    ((Function.forall_update_iff guest fun u pc => GuestCaller h s' u pc).mpr
      ⟨hcaller, fun u _ => guestCaller_congr hsame (hg.caller u)⟩)

theorem Genuine.park {t : Tid} {pc' : GuestPc} (hg : Genuine s guest processor h)
    (hothers : ∀ u, u ≠ t → (guest u).phase.owns = false)
    (hbefore : s.state ≠ .busy ∧ s.state ≠ .done)
    (hstate : s'.state = .guestBusy ∨ s'.state = .free) (hcaller : GuestCaller h s' t pc') :
    Genuine s' (Function.update guest t pc') processor h := by
  apply (hg.account.park hbefore hstate).genuine
  refine (Function.forall_update_iff guest fun u pc => GuestCaller h s' u pc).mpr ⟨hcaller, ?_⟩
  intro u hu
  exact guestCaller_unowned (hothers u hu) ⟨rfl, fun _ _ hr => hr, fun _ hrun => hrun⟩
    (hg.caller u)

theorem extends_publish {t u : Tid} (call : GuestCall) (hu : u ≠ t) :
    Extends h (h.publish t call) u where
  mine := Function.update_of_ne hu _ _
  requests i r hr := by
    obtain ⟨hi, _⟩ := List.getElem?_eq_some_iff.mp hr
    exact (List.getElem?_append_left hi).trans hr
  runs _ hrun := hrun

theorem mine_publish (t : Tid) (call : GuestCall) : Mine (h.publish t call) t call := by
  have hmine : (h.publish t call).mine t = h.requests.length := Function.update_self _ _ _
  unfold Mine
  rw [hmine]
  simp [GuestTraffic.publish]

theorem Genuine.post {t : Tid} {call : GuestCall} {seq : Nat}
    (hg : Genuine s guest processor h) (hpc : guest t = .sending call (.storeReqReady seq))
    (hstate : s.state = .guestBusy)
    (hothers : ∀ u, u ≠ t → (guest u).phase.owns = false) :
    Genuine { s with state := .reqReady }
      (Function.update guest t (.sending call (.waiting seq))) processor (h.publish t call) := by
  have hlast : LastRequest (h.publish t call) call.request := (mine_publish t call).last
  have hstored : Stored s call ∧ s.msgType = call.msgType := by
    have hcaller := hg.caller t
    rw [hpc] at hcaller
    exact hcaller
  apply (hg.account.post hstate hlast hstored.1.1 hstored.1.2 hstored.2).genuine
  refine (Function.forall_update_iff guest fun u pc => GuestCaller (h.publish t call)
    { s with state := .reqReady } u pc).mpr ⟨mine_publish t call, ?_⟩
  intro u hu
  exact guestCaller_unowned (hothers u hu) (extends_publish call hu) (hg.caller u)

theorem genuine_tenant {t : Tid} {pc' : GuestPc} {q q' : Phase}
    (hg : Genuine s guest processor h)
    (hpossession : Possession Go.tryClaimGuestSlot s.state (fun u => (guest u).phase))
    (hq : (guest t).phase = q) (hchange : PhaseChange Go.tryClaimGuestSlot s q q' s')
    (hpost : q ≠ .armed) (hcaller : GuestCaller h s' t pc') :
    Genuine s' (Function.update guest t pc') processor h := by
  have hallows : q.Allows Go.tryClaimGuestSlot s.state := hq ▸ hpossession.allows t
  have howned : q.owns = true → ∀ u, u ≠ t → (guest u).phase.owns = false :=
    fun hown => hpossession.others (hq ▸ hown)
  have hparked : q.Parked → s.state ≠ .busy ∧ s.state ≠ .done := by
    intro hp
    rw [show s.state = .guestBusy from hp.state_eq hallows]
    exact ⟨nofun, nofun⟩
  have hready : s.state = .respReady → s.state ≠ .busy ∧ s.state ≠ .done := by
    intro hs
    rw [hs]
    exact ⟨nofun, nofun⟩
  cases hchange with
  | stay | raise | reraise | sees | lose | drop | giveUp | settle | keep | freeLost
  | releaseLost => exact hg.look rfl (sameData_words _) hcaller
  | prepare _ hstate =>
    exact hg.park (howned rfl) (hparked (.inl rfl)) (.inl (hstate.trans hallows)) hcaller
  | publish => exact absurd rfl hpost
  | consume => exact hg.park (howned rfl) (hready hallows) (.inl rfl) hcaller
  | free _ hp => exact hg.park (howned hp.owns) (hparked hp) (.inr rfl) hcaller
  | release hs =>
    exact hg.park (fun u _ => hpossession.vacant t hq hs u) (hready hs) (.inr rfl) hcaller

theorem genuine_claim {t : Tid} {call : GuestCall} {pc : ClaimPc} {r : Progress ClaimPc}
    (hg : Genuine s guest processor h)
    (hpossession : Possession Go.tryClaimGuestSlot s.state (fun u => (guest u).phase))
    (hlawful : pc.Lawful Go.tryClaimGuestSlot)
    (hexcl : ∀ current, pc = .casState current → s.state = current →
      ∀ u, (guest u).phase.owns = false)
    (hchange : ClaimChange Go.tryClaimGuestSlot s pc r s') :
    Genuine s' (Function.update guest t (.afterClaim call r)) processor h := by
  have hcaller : GuestCaller h s' t (.afterClaim call r) := by
    cases r with
    | running => trivial
    | returned ok => cases ok with
      | true => trivial
      | false => trivial
  cases hchange with
  | look | lease => exact hg.look rfl (sameData_words _) hcaller
  | claimFree hfree =>
    refine hg.park ?_ (by rw [hfree]; exact ⟨nofun, nofun⟩) (.inl rfl) hcaller
    intro u _
    exact Phase.unowned_of_free tryClaimGuestSlot_proper (hfree ▸ hpossession.allows u)
  | steal current hcurrent =>
    refine hg.park (fun u _ => hexcl current rfl hcurrent u) ?_ (.inl rfl) hcaller
    have hresp : current = .respReady := of_decide_eq_true hlawful
    rw [hcurrent, hresp]
    exact ⟨nofun, nofun⟩

end

theorem genuine_processor [DecidableEq Pid] {config : GuestConfig} {s s' : Slot}
    {guest : Tid → GuestPc} {processor : Pid → ProcessorPc} {h : GuestTraffic Tid Pid} {p : Pid}
    {pc' : ProcessorPc} {move : ProcessorMove} (hg : Genuine s guest processor h)
    (hallows : ∀ t, (guest t).phase.Allows Go.tryClaimGuestSlot s.state)
    (hstep : processorStep config s (processor p) move = some (s', pc')) :
    Genuine s' guest (Function.update processor p pc')
      (recordProcessor s h p (processor p) move) := by
  apply (account_processor hg.account hstep).genuine
  intro t
  by_cases htransit : s.state = .reqReady ∨ s.state = .busy ∨ s.state = .done
  · exact guestCaller_waiting (hallows t) htransit (mine_recordProcessor s h p _ move)
      (requests_recordProcessor s h p _ move) (hg.caller t)
  · obtain ⟨hready, hrest⟩ := not_or.mp htransit
    obtain ⟨-, hsame, -, hrecord⟩ := processor_looks (h := h)
      (hg.account.unserved (not_or.mp hrest) p) hready hstep
    rw [hrecord]
    exact guestCaller_congr hsame (hg.caller t)

end ShmIpc.Slots
