import ShmIpc.Slots.FreshResponse

/-!
The host side of the account, and the result for a slot with a single caller:
every successful call returns the response to the request it published, and the
handler runs at most once for each published request.
-/

namespace ShmIpc.Slots

open Library

section

variable {s s' : Slot} {p p' : HostPc} {w : WorkerPc} {h : Traffic}

theorem Fresh.look (hf : Fresh s p w h) (hstate : s'.state = s.state)
    (hsize : s'.reqSize = s.reqSize) (hbuffer : s'.reqBuffer = s.reqBuffer)
    (htype : s'.msgType = s.msgType)
    (hanswer : ∀ writes, answerAfter s' writes = answerAfter s writes) (harmed : Armed s' p')
    (hcaller : Caller h s' w p') : Fresh s' p' w h where
  taken_le := hf.taken_le
  unclaimed hs := hf.unclaimed (hstate ▸ hs)
  claimed hs := hf.claimed (hstate ▸ hs)
  served hs := hstate ▸ hf.served hs
  below := hf.below
  nodup := hf.nodup
  unstarted := hf.unstarted
  started := hf.started
  carries hs := by
    rw [hsize, hbuffer]
    exact hf.carries (hstate ▸ hs)
  typed hs := by
    rw [htype]
    exact hf.typed (hstate ▸ hs)
  work r hr := by
    have hwork := hf.work r hr
    cases w with
    | loadReqSize | handling => exact fun hs => hwork (hstate ▸ hs)
    | lock writes _ | write writes _ => exact fun hs => hanswer writes ▸ hwork (hstate ▸ hs)
    | publish _ => exact fun hs => hanswer [] ▸ hwork (hstate ▸ hs)
    | _ => trivial
  answered hs r hr := hanswer [] ▸ hf.answered (hstate ▸ hs) r hr
  armed := harmed
  caller := hcaller

theorem Fresh.park (hf : Fresh s p w h) (hstate : s'.state = .busy ∨ s'.state = .free)
    (harmed : Armed s' p') (hcaller : Caller h s' w p') : Fresh s' p' w h := by
  have hnot : s'.state ≠ .reqReady ∧ s'.state ≠ .guestBusy ∧ s'.state ≠ .done ∧
      s'.state ≠ .respReady := by
    cases hstate with
    | inl hs => rw [hs]; exact ⟨nofun, nofun, nofun, nofun⟩
    | inr hs => rw [hs]; exact ⟨nofun, nofun, nofun, nofun⟩
  obtain ⟨hreq, hguest, hdone, hresp⟩ := hnot
  refine ⟨hf.taken_le, fun hs => absurd hs hreq, ?_, fun hs => ⟨(hf.served hs).1, hresp⟩, hf.below,
    hf.nodup, hf.unstarted, hf.started, ?_, ?_, fun _ _ => work_of_state hguest hdone,
    fun hs => absurd hs hresp, harmed, hcaller⟩
  · rintro (hs | hs | hs)
    · exact absurd hs hguest
    · exact absurd hs hdone
    · exact absurd hs hresp
  · rintro (hs | hs | hs | hs)
    · exact absurd hs hreq
    · exact absurd hs hguest
    · exact absurd hs hdone
    · exact absurd hs hresp
  · rintro (hs | hs)
    · exact absurd hs hreq
    · exact absurd hs hguest

theorem current_publish (h : Traffic) (call : HostCall) (s : Slot) :
    Current (h.publish call s) ⟨call.msgType, call.size, sized s.reqBuffer call.size⟩ :=
  List.getLast?_concat

theorem Fresh.post {call : HostCall} {seq : Nat}
    (hf : Fresh s (.sending call (.storeReqReady seq)) w h)
    (harmed : Armed { s with state := .reqReady } p')
    (hcaller : Caller (h.publish call s) { s with state := .reqReady } w p') :
    Fresh { s with state := .reqReady } p' w (h.publish call s) where
  taken_le := by
    have hle := hf.taken_le
    simp only [Traffic.publish, List.length_append]
    omega
  unclaimed _ := by
    have hle := hf.taken_le
    simp only [Traffic.publish, List.length_append, List.length_singleton]
    omega
  claimed := by
    rintro (hs | hs | hs)
    · cases hs
    · cases hs
    · cases hs
  served hs := ⟨(hf.served hs).1, nofun⟩
  below := hf.below
  nodup := hf.nodup
  unstarted := hf.unstarted
  started := hf.started
  carries _ := ⟨_, current_publish h call s, hf.armed.1, rfl⟩
  typed _ r hr := by
    obtain rfl := Option.some.inj ((current_publish h call s).symm.trans hr)
    exact hf.armed.2
  work _ _ := work_of_state nofun nofun
  answered := nofun
  armed := harmed
  caller := hcaller

end

theorem armed_send (layout : Layout) (now : Nat) {s : Slot} {call : HostCall} {pc : SendPc}
    (h : Armed s (.sending call pc)) :
    Armed (sendStep layout now s call pc).1 (.afterSend call (sendStep layout now s call pc).2) := by
  cases pc with
  | checkSize =>
    simp only [sendStep]
    split
    · split
      · trivial
      · trivial
    · trivial
  | storeReqSize => exact rfl
  | storeMsgType => exact ⟨h, rfl⟩
  | storeMsgSeq | storeLease | raiseActiveWait => exact h
  | storeNextSeq seq =>
    simp only [sendStep]
    split
    · exact h
    · exact h
  | storeReqReady seq | waiting seq | checkSeq seq | copyResponse seq =>
    simp only [sendStep]
    split
    · trivial
    · trivial
  | dropActiveWait seq ready =>
    cases ready with
    | false => trivial
    | true => trivial
  | checkType =>
    simp only [sendStep]
    split
    · trivial
    · split
      · trivial
      · trivial
  | reraiseActiveWait | park | loadRespSize | storeFree => trivial

theorem copied_of_consumes {h : Traffic} {s : Slot} {w : WorkerPc} (hc : Consumes h s w)
    (htype : s.msgType ≠ .systemError) :
    ∃ r, h.requests[h.mine]? = some r ∧ Copied h r (copyOut s.respBuffer s.respSize) := by
  obtain ⟨r, hr, hsettled⟩ := hc.settled
  refine ⟨r, ?_, ?_⟩
  · rw [← hr, List.getLast?_eq_getElem?, ← hc.mine, Nat.add_sub_cancel]
  · cases hsettled with
    | error herror => exact absurd herror htype
    | worker hown hsize =>
      refine .worker hown ?_
      rw [show s.respSize = 0 from hsize]
      rfl
    | handler run hmem hrequest hrunType hviews hanswer =>
      refine .handler run _ _ _ hmem ?_ hrunType hviews hanswer htype rfl
      have hmine := hc.mine
      have htaken := hc.taken
      omega

theorem caller_send (layout : Layout) (now : Nat) {s : Slot} {w : WorkerPc} {h : Traffic}
    {call : HostCall} {pc : SendPc} (hf : Fresh s (.sending call pc) w h)
    (hallows : pc.phase.Allows Cpp.tryClaimSlot s.state) :
    Caller (recordHost s h (.sending call pc) (.advance now)) (sendStep layout now s call pc).1 w
      (.afterSend call (sendStep layout now s call pc).2) := by
  have hcaller := hf.caller
  cases pc with
  | checkSize =>
    simp only [sendStep]
    split
    · split
      · trivial
      · intro _ h
        cases h
    · trivial
  | storeReqSize | storeMsgType | storeMsgSeq | storeLease | raiseActiveWait => trivial
  | storeNextSeq seq =>
    simp only [sendStep]
    split
    · trivial
    · trivial
  | storeReqReady seq =>
    have hmine : (h.publish call s).mine + 1 = (h.publish call s).requests.length := by
      simp only [Traffic.publish, List.length_append, List.length_singleton]
    simp only [sendStep]
    split
    · exact hmine
    · exact hmine
  | reraiseActiveWait => exact hcaller
  | waiting seq =>
    simp only [sendStep]
    split
    · exact hcaller
    · exact hcaller
  | park seq =>
    have hstate : s.state = .respReady := hallows
    obtain ⟨r, hr, _⟩ := hf.carries (.inr (.inr (.inr hstate)))
    refine ⟨hcaller, hf.claimed (.inr (.inr hstate)), ?_, r, hr, hf.answered hstate r hr⟩
    cases hw : w.served with
    | false => rfl
    | true => exact absurd hstate (hf.served hw).2
  | dropActiveWait seq ready =>
    cases ready with
    | false => trivial
    | true => exact ⟨hcaller.mine, hcaller.taken, hcaller.unserved, hcaller.settled⟩
  | checkSeq seq =>
    simp only [sendStep]
    split
    · exact hcaller
    · intro _ h
      cases h
  | checkType =>
    simp only [sendStep]
    split
    · intro _ h
      cases h
    case isFalse htype =>
      split
      · trivial
      · exact ⟨hcaller, htype⟩
  | loadRespSize => exact ⟨hcaller.1, hcaller.2, rfl⟩
  | copyResponse respSize =>
    simp only [sendStep]
    split
    · trivial
    · intro bytes hbytes
      cases hbytes
      rw [hcaller.2.2]
      exact ⟨hcaller.1.unserved, copied_of_consumes hcaller.1 hcaller.2.1⟩
  | storeFree result => trivial

theorem fresh_tenant {s s' : Slot} {p p' : HostPc} {w : WorkerPc} {h : Traffic} {q q' : Phase}
    (hf : Fresh s p w h) (hallows : q.Allows Cpp.tryClaimSlot s.state)
    (hchange : PhaseChange Cpp.tryClaimSlot s q q' s') (hpost : q ≠ .armed)
    (harmed : Armed s' p') (hcaller : Caller h s' w p') : Fresh s' p' w h := by
  cases hchange with
  | stay | raise | reraise | sees | lose | drop | giveUp | freeLost | releaseLost =>
    exact hf.look rfl rfl rfl rfl (fun writes => answerAfter_congr writes rfl rfl rfl) harmed
      hcaller
  | prepare _ hstate => exact hf.park (.inl (hstate.trans hallows)) harmed hcaller
  | consume => exact hf.park (.inl rfl) harmed hcaller
  | settle _ _ _ hparked => exact hf.park (.inl (hparked.state_eq hallows)) harmed hcaller
  | keep _ hparked => exact hf.park (.inl (hparked.state_eq hallows)) harmed hcaller
  | free | release => exact hf.park (.inr rfl) harmed hcaller
  | publish => exact absurd rfl hpost

theorem fresh_claim {s s' : Slot} {p p' : HostPc} {w : WorkerPc} {h : Traffic} {pc : ClaimPc}
    {r : Progress ClaimPc} (hf : Fresh s p w h) (hchange : ClaimChange Cpp.tryClaimSlot s pc r s')
    (harmed : Armed s' p') (hcaller : Caller h s' w p') : Fresh s' p' w h := by
  cases hchange with
  | look | lease =>
    exact hf.look rfl rfl rfl rfl (fun writes => answerAfter_congr writes rfl rfl rfl) harmed
      hcaller
  | claimFree | steal => exact hf.park (.inl rfl) harmed hcaller

theorem fresh_reclaim {s s' : Slot} {p p' : HostPc} {w : WorkerPc} {h : Traffic} {pc : ReclaimPc}
    (hf : Fresh s p w h) (hchange : ReclaimChange s pc s') (harmed : Armed s' p')
    (hcaller : Caller h s' w p') : Fresh s' p' w h := by
  cases hchange with
  | look =>
    exact hf.look rfl rfl rfl rfl (fun writes => answerAfter_congr writes rfl rfl rfl) harmed
      hcaller
  | free => exact hf.park (.inr rfl) harmed hcaller

theorem fresh_change {s s' : Slot} {p p' : HostPc} {w : WorkerPc} {h : Traffic}
    (hf : Fresh s p w h) (hallows : p.phase.Allows Cpp.tryClaimSlot s.state)
    (hchange : HostChange s p p' s') (hpost : p.phase ≠ .armed) (harmed : Armed s' p')
    (hcaller : Caller h s' w p') : Fresh s' p' w h := by
  cases hchange with
  | startClaim | startReclaim =>
    exact fresh_tenant hf hallows (.stay _) hpost harmed hcaller
  | claim now pc => exact fresh_claim hf (claim_change _ now s pc) harmed hcaller
  | reclaim now pc => exact fresh_reclaim hf (reclaim_change now s pc) harmed hcaller
  | tenant _ _ _ _ _ _ hphase => exact fresh_tenant hf hallows hphase hpost harmed hcaller

theorem fresh_send (layout : Layout) (now : Nat) {s : Slot} {w : WorkerPc} {h : Traffic}
    {call : HostCall} {pc : SendPc} (hf : Fresh s (.sending call pc) w h)
    (hallows : pc.phase.Allows Cpp.tryClaimSlot s.state) :
    Fresh (sendStep layout now s call pc).1 (.afterSend call (sendStep layout now s call pc).2) w
      (recordHost s h (.sending call pc) (.advance now)) := by
  have harmed := armed_send layout now hf.armed
  have hcaller := caller_send layout now hf hallows
  by_cases hpost : ∃ seq, pc = .storeReqReady seq
  · obtain ⟨seq, rfl⟩ := hpost
    exact hf.post harmed hcaller
  · have hsame : recordHost s h (.sending call pc) (.advance now) = h := by
      cases pc with
      | storeReqReady seq => exact absurd ⟨seq, rfl⟩ hpost
      | _ => rfl
    rw [hsame] at hcaller ⊢
    refine fresh_tenant hf hallows (send_change layout now s call pc) ?_ harmed hcaller
    intro hphase
    cases pc with
    | storeReqReady seq => exact hpost ⟨seq, rfl⟩
    | dropActiveWait seq ready => cases ready with
      | true => cases hphase
      | false => cases hphase
    | _ => cases hphase

theorem armed_afterClaim (s : Slot) (r : Progress ClaimPc) : Armed s (.afterClaim r) := by
  cases r with
  | running _ => trivial
  | returned ok => cases ok with
    | false => trivial
    | true => trivial

theorem caller_afterClaim (h : Traffic) (s : Slot) (w : WorkerPc) (r : Progress ClaimPc) :
    Caller h s w (.afterClaim r) := by
  cases r with
  | running _ => trivial
  | returned ok => cases ok with
    | false => trivial
    | true => trivial

theorem fresh_host {layout : Layout} {s s' : Slot} {p p' : HostPc} {w : WorkerPc} {h : Traffic}
    {move : HostMove} (hf : Fresh s p w h) (hallows : p.phase.Allows Cpp.tryClaimSlot s.state)
    (hstep : hostStep layout s p move = some (s', p')) :
    Fresh s' p' w (recordHost s h p move) := by
  have hchange := hostStep_change hstep
  revert hstep
  fun_cases hostStep layout s p move with
  | case1 | case2 | case5 | case7 | case8 =>
    intro hstep
    cases hstep
    exact fresh_change hf hallows hchange (by intro h; cases h) trivial trivial
  | case3 pc now r =>
    intro hstep
    cases hstep
    exact fresh_claim hf (claim_change _ now s pc) (armed_afterClaim _ _)
      (caller_afterClaim _ _ _ _)
  | case4 pc now r =>
    intro hstep
    cases hstep
    refine fresh_reclaim hf (reclaim_change now s pc) ?_ ?_
    · cases r.2 with
      | running _ | returned _ => trivial
    · cases r.2 with
      | running _ | returned _ => trivial
  | case9 call pc now r =>
    intro hstep
    cases hstep
    exact fresh_send layout now hf hallows
  | case11 | case12 =>
    intro hstep
    cases hstep
    exact fresh_change hf hallows hchange (by intro h; cases h) trivial hf.caller
  | case6 | case10 | case13 => intro hstep; cases hstep

theorem fresh_initial {start : HostSystem Unit} (h : start.Initial) :
    Fresh start.slot (start.host ()) start.worker .empty := by
  have hfree : ∀ st, st ≠ .free → start.slot.state ≠ st := by
    intro st hne heq
    exact hne (heq.symm.trans h.free)
  rw [h.idle (), h.polling]
  refine ⟨Nat.le_refl _, fun hs => absurd hs (hfree _ nofun), ?_, nofun, nofun, List.nodup_nil, nofun,
    nofun, ?_, ?_, nofun, fun hs => absurd hs (hfree _ nofun), trivial, trivial⟩
  · intro _
    rfl
  · rintro (hs | hs | hs | hs)
    · exact absurd hs (hfree _ nofun)
    · exact absurd hs (hfree _ nofun)
    · exact absurd hs (hfree _ nofun)
    · exact absurd hs (hfree _ nofun)
  · intro _ r hr
    cases hr

theorem exclusive_of_single (s : HostSystem Unit) (a : HostAction Unit) : Exclusive s a :=
  fun _ _ _ _ _ _ _ hu => absurd rfl hu

theorem fresh_step {layout : Layout} {s s' : HostSystem Unit} {h : Traffic}
    {a : HostAction Unit} (hown : Own s) (hf : Fresh s.slot (s.host ()) s.worker h)
    (hsystem : s.step layout a = some s') :
    Fresh s'.slot (s'.host ()) s'.worker (recordTraffic s a s' h) := by
  cases a with
  | host t move =>
    obtain ⟨slot', pc', hhost, rfl⟩ := HostSystem.step_host hsystem
    simp only [Function.update_self]
    exact fresh_host hf (hown.possession.allows ()) hhost
  | worker move =>
    obtain ⟨slot', pc', hworker, rfl⟩ := HostSystem.step_worker hsystem
    exact fresh_worker hf (hown.possession.allows ()) hown.locked hworker

theorem response_of_sendStep {layout : Layout} {now : Nat} {s : Slot} {call : HostCall}
    {pc : SendPc} {bytes : List UInt8}
    (h : (sendStep layout now s call pc).2 = .keeps (.response bytes) ∨
      (sendStep layout now s call pc).2 = .leaves (.response bytes)) :
    (∃ respSize, pc = .copyResponse respSize ∧ bytes = copyOut s.respBuffer respSize) ∨
      pc = .storeFree (.response bytes) := by
  cases pc with
  | copyResponse respSize =>
    simp only [sendStep] at h
    split at h
    · refine .inl ⟨respSize, rfl, ?_⟩
      cases h with
      | inl h => cases h; rfl
      | inr h => cases h
    · simp at h
  | storeFree result =>
    cases h with
    | inl h => cases h
    | inr h => cases h; exact .inr rfl
  | checkSize =>
    simp only [sendStep] at h
    split at h
    · split at h
      · simp at h
      · simp at h
    · simp at h
  | checkType =>
    simp only [sendStep] at h
    split at h
    · simp at h
    · split at h
      · simp at h
      · simp at h
  | storeReqReady | waiting | checkSeq =>
    simp only [sendStep] at h
    split at h
    · simp at h
    · simp at h
  | dropActiveWait seq ready =>
    cases ready with
    | false => simp [sendStep] at h
    | true => simp [sendStep] at h
  | _ => simp [sendStep] at h

theorem copied_of_returns {layout : Layout} {s : HostSystem Unit} {h : Traffic}
    {bytes : List UInt8} (hf : Fresh s.slot (s.host ()) s.worker h)
    (hreturns : Returns layout s bytes) :
    ∃ r, h.requests[h.mine]? = some r ∧ Copied h r bytes := by
  obtain ⟨now, call, pc, hpc, hresult⟩ := hreturns
  have hcaller := hf.caller
  rw [hpc] at hcaller
  cases response_of_sendStep hresult with
  | inl hcopy =>
    obtain ⟨respSize, rfl, rfl⟩ := hcopy
    obtain ⟨hconsumes, htype, rfl⟩ := hcaller
    exact copied_of_consumes hconsumes htype
  | inr hfree =>
    rw [hfree] at hcaller
    exact (hcaller bytes rfl).2

/-- With one calling thread and no reclaimer, every call that returns a response
returns exactly the answer to the request it published itself, if this answer fits the
response area, whichever earlier requests timed out and however late their handlers
finish; and no two runs of the handler belong to the same claim of a published request. -/
theorem call_returns_own_response (layout : Layout) (start s : HostSystem Unit) (h : Traffic)
    (hstart : start.Initial)
    (hreach : Reachable (recorded (HostSystem.step layout) recordTraffic)
      (fun _ a => a.reclaims = false) (start, .empty) (s, h)) :
    ((∀ run ∈ h.runs, run.request = h.mine → run.fits = true) → ∀ bytes, Returns layout s bytes →
      ∃ r, h.requests[h.mine]? = some r ∧ Answers h r bytes) ∧
    (h.runs.map HandlerRun.request).Nodup ∧ ∀ run ∈ h.runs, run.request < h.requests.length := by
  have hinv : Own s ∧ Fresh s.slot (s.host ()) s.worker h :=
    hreach.recorded_invariant (fun s h => Own s ∧ Fresh s.slot (s.host ()) s.worker h)
      ⟨own_initial hstart, fresh_initial hstart⟩
      (fun s _ a _ hp hguard hstep => ⟨own_step hp.1 hguard (exclusive_of_single s a) hstep,
        fresh_step hp.1 hp.2 hstep⟩)
  obtain ⟨_, hf⟩ := hinv
  refine ⟨?_, hf.nodup, fun run hrun => Nat.lt_of_lt_of_le (hf.below run hrun) hf.taken_le⟩
  intro hfits bytes hreturns
  obtain ⟨r, hr, hcopied⟩ := copied_of_returns hf hreturns
  exact ⟨r, hr, hcopied.answers hfits⟩

/-- The first request times out while its handler runs. The thread steals the slot
and publishes a second one; the first handler returns late and its response is
dropped. The second request is then served. -/
def lateRun : List (HostAction Unit) :=
  claimRun () ++ sendRun () .acquired ++ workerAdvances Unit 4 ++ [.worker .handlerReads] ++
    [.host () .expire] ++ hostAdvances () 1 ++ [.host () .tryClaim] ++ hostAdvances () 5 ++
    [.host () (.fillRequest [5, 6])] ++ sendRun () .acquired ++
    [.worker (.handlerWrites [1, 1]), .worker (.handlerReturns 1 .normal)] ++
    workerAdvances Unit 5 ++
    [.worker .handlerReads, .worker (.handlerWrites [7, 8]), .worker (.handlerReturns 2 .normal)] ++
    workerAdvances Unit 5 ++ hostAdvances () 7

theorem exists_returns_of_exec (acts : List (HostAction Unit)) (bytes : List UInt8)
    (test : Traffic → Bool)
    (hrun : (exec (checked (fun _ a => !a.reclaims)
      (recorded (HostSystem.step ⟨true, 1⟩) recordTraffic)) (smallStart Unit, .empty) acts).any
      (fun p => p.1.host () = .sending ⟨.acquired, 1, .normal⟩ (.storeFree (.response bytes)) &&
        test p.2) = true) :
    ∃ s h, Reachable (recorded (HostSystem.step ⟨true, 1⟩) recordTraffic)
      (fun _ a => a.reclaims = false) (smallStart Unit, .empty) (s, h) ∧
      Returns ⟨true, 1⟩ s bytes ∧ test h = true := by
  obtain ⟨p, hreach, htest⟩ := exists_reachable_of_exec
    (recorded (HostSystem.step ⟨true, 1⟩) recordTraffic) (fun _ a => a.reclaims = false)
    (smallStart Unit, .empty) (fun _ a => !a.reclaims) (fun _ _ hcheck => by simpa using hcheck)
    acts _ hrun
  simp only [Bool.and_eq_true, decide_eq_true_eq] at htest
  exact ⟨p.1, p.2, hreach, ⟨0, _, _, htest.1, .inr rfl⟩, htest.2⟩

theorem call_returns_own_response_lateRun :
    ∃ s h, Returns ⟨true, 1⟩ s [7, 8] ∧ h.requests.length = 2 ∧ h.runs.length = 2 ∧
      ∃ r, h.requests[h.mine]? = some r ∧ Answers h r [7, 8] := by
  obtain ⟨s, h, hreach, hreturns, htest⟩ := exists_returns_of_exec lateRun [7, 8]
    (fun h => h.requests.length = 2 ∧ h.runs.length = 2 ∧ ∀ run ∈ h.runs, run.fits = true)
    (by decide)
  obtain ⟨hrequests, hruns, hfits⟩ := of_decide_eq_true htest
  have hown := call_returns_own_response ⟨true, 1⟩ (smallStart Unit) s h
    (smallStart_initial Unit) hreach
  exact ⟨s, h, hreturns, hrequests, hruns,
    hown.1 (fun run hrun _ => hfits run hrun) [7, 8] hreturns⟩

/-- The handler leaves two bytes in a response area of two and announces three. -/
def overlongRun : List (HostAction Unit) :=
  claimRun () ++ sendRun () .acquired ++ workerAdvances Unit 4 ++
    [.worker (.handlerWrites [7, 8]), .worker (.handlerReturns 3 .normal)] ++
    workerAdvances Unit 5 ++ hostAdvances () 7

/-- The call succeeds with two of the three bytes. -/
theorem call_returns_cut_response :
    ∃ s h, Reachable (recorded (HostSystem.step ⟨true, 1⟩) recordTraffic)
      (fun _ a => a.reclaims = false) (smallStart Unit, .empty) (s, h) ∧
      Returns ⟨true, 1⟩ s [7, 8] ∧
      h.runs.map HandlerRun.answer = [some (3, .normal, [7, 8])] ∧
      ¬ ∃ r, h.requests[h.mine]? = some r ∧ Answers h r [7, 8] := by
  obtain ⟨s, h, hreach, hreturns, htest⟩ := exists_returns_of_exec overlongRun [7, 8]
    (fun h => h.runs.map HandlerRun.answer = [some (3, .normal, [7, 8])]) (by decide)
  have hruns := of_decide_eq_true htest
  refine ⟨s, h, hreach, hreturns, hruns, ?_⟩
  rintro ⟨r, -, hanswers⟩
  cases hanswers with
  | worker _ hbytes => cases hbytes
  | handler run respSize respType respBuffer hmem _ _ _ hanswer hsize _ =>
    have hmap := List.mem_map_of_mem (f := HandlerRun.answer) hmem
    rw [hruns, hanswer, List.mem_singleton] at hmap
    cases hmap
    cases hsize

end ShmIpc.Slots
