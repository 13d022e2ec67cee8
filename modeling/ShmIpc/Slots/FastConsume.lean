import ShmIpc.Slots.GuestResponse
import ShmIpc.Slots.StealRight

/-!
The fast path of a guest call. The sender keeps the slot at `respReady` under its
active-wait flag, drops the flag and then swaps the slot to `free`. In between the
slot looks like a zombie: another sender can recycle it, publish, and have its own
answer back at `respReady`, and the late swap then frees a transaction that is not
the sender's. In orderly runs the swap fails or frees the sender's own transaction,
and every call returns the response to its own request.
-/

namespace ShmIpc.Slots

open Library

variable {Tid Pid : Type}

def GuestAction.expires : GuestAction Tid Pid → Bool
  | .guest _ .expire => true
  | _ => false

/-- What the fast path promises in a state of a run. -/
structure FastConsumeSafe (config : GuestConfig) (s : GuestSystem Tid Pid)
    (h : Ledger Tid × GuestTraffic Tid Pid) : Prop where
  /-- A release that succeeds frees the slot of the sender's own claim. -/
  release : ∀ t call result, s.guest t = .sending call (.release true result) →
    s.slot.state = .respReady → h.1.claims = h.1.own t
  response : ∀ t call bytes, GuestReturns config s t call bytes → OwnResponse h.2 t call bytes
  /-- The slot of a sender that waits or reads is neither freed nor stripped of its flag. -/
  reading : ∀ t, (s.guest t).phase = .awaiting ∨ (s.guest t).phase = .ready →
    s.slot.state ≠ .free ∧ s.slot.activeWait = true

theorem guestReturns_release {config : GuestConfig} {s : GuestSystem Tid Pid} {t : Tid}
    {call : GuestCall} {bytes : List UInt8} (h : GuestReturns config s t call bytes) :
    ∃ fast, s.guest t = .sending call (.release fast (.response bytes)) := by
  obtain ⟨now, pc, hpc, hresult⟩ := h
  cases pc with
  | release fast result =>
    cases hresult
    exact ⟨fast, hpc⟩
  | dropActiveWait seq outcome => cases outcome with
    | _ => cases hresult
  | checkSize | waiting | consume | checkSeq | checkType =>
    simp only [guestSendStep] at hresult
    split at hresult
    · cases hresult
    · cases hresult
  | _ => cases hresult

theorem safe_of_fair {config : GuestConfig} {base : Nat} {s : GuestSystem Tid Pid}
    {h : Ledger Tid × GuestTraffic Tid Pid} (hf : Fair Go.tryClaimGuestSlot base s.view h.1)
    (hg : Genuine s.slot s.guest s.processor h.2) : FastConsumeSafe config s h where
  release t call result hpc hstate := by
    refine hf.releases tryClaimGuestSlot_proper ?_ hstate
    show (s.guest t).phase = .releasing
    rw [hpc]
    rfl
  response t call bytes hreturns := by
    obtain ⟨fast, hpc⟩ := guestReturns_release hreturns
    have hcaller := hg.caller t
    rw [hpc] at hcaller
    cases fast with
    | true => exact hcaller bytes rfl
    | false => cases hcaller
  reading t hphase := by
    have hallows : (s.guest t).phase.Allows Go.tryClaimGuestSlot s.slot.state :=
      hf.possession.allows t
    have hflagged : (s.guest t).phase.flagged = true → s.slot.activeWait = true := hf.flagged t
    cases hphase with
    | inl hphase =>
      rw [hphase] at hallows hflagged
      refine ⟨?_, hflagged rfl⟩
      intro hfree
      rw [hfree] at hallows
      obtain hs | hs | hs | hs := hallows
      · cases hs
      · cases hs
      · cases hs
      · cases hs
    | inr hphase =>
      rw [hphase] at hallows hflagged
      refine ⟨?_, hflagged rfl⟩
      rw [show s.slot.state = .respReady from hallows]
      nofun

theorem GuestSendPc.armed {pc : GuestSendPc} (h : pc.phase = .armed) :
    ∃ seq, pc = .storeReqReady seq := by
  cases pc with
  | storeReqReady seq => exact ⟨seq, rfl⟩
  | dropActiveWait seq outcome => cases outcome with
    | _ => cases h
  | checkSeq fast _ | checkType fast | loadRespSize fast | copyResponse fast _ | release fast _ =>
    cases fast with
    | true => cases h
    | false => cases h
  | _ => cases h

variable [DecidableEq Tid]

theorem genuine_send {config : GuestConfig} {s : Slot} {guest : Tid → GuestPc}
    {processor : Pid → ProcessorPc} {h : GuestTraffic Tid Pid} {t : Tid} {call : GuestCall}
    {pc : GuestSendPc} (now : Nat) (hfast : config.fastConsume = true)
    (hg : Genuine s guest processor h)
    (hpossession : Possession Go.tryClaimGuestSlot s.state (fun u => (guest u).phase))
    (hpc : guest t = .sending call pc) :
    Genuine (guestSendStep config now s call pc).1
      (Function.update guest t (.afterSend call (guestSendStep config now s call pc).2)) processor
      (recordGuest h t (.sending call pc) (.advance now)) := by
  have hphase : (guest t).phase = pc.phase := congrArg GuestPc.phase hpc
  have hallows : pc.phase.Allows Go.tryClaimGuestSlot s.state := hphase ▸ hpossession.allows t
  by_cases hpost : ∃ seq, pc = .storeReqReady seq
  · obtain ⟨seq, rfl⟩ := hpost
    exact hg.post hpc hallows (hpossession.others (by rw [hphase]; rfl))
  · have hrecord : recordGuest h t (.sending call pc) (.advance now) = h := by
      cases pc with
      | storeReqReady seq => exact absurd ⟨seq, rfl⟩ hpost
      | _ => rfl
    have hbump : ∀ seq, pc ≠ .bumpGen seq := by
      rintro seq rfl
      have hcaller := hg.caller t
      rw [hpc] at hcaller
      exact hcaller
    rw [hrecord]
    refine genuine_tenant hg hpossession hphase (guestSend_change config now s call pc hbump)
      (fun harmed => hpost (GuestSendPc.armed harmed)) ?_
    exact guestCaller_send now hfast hg hpc (fun seq heq => hpost ⟨seq, heq⟩) hallows

variable [DecidableEq Pid]

theorem genuine_guest {config : GuestConfig} {base : Nat} {s s' : GuestSystem Tid Pid} {t : Tid}
    {move : GuestMove} {ledger : Ledger Tid} {h : GuestTraffic Tid Pid}
    (hfast : config.fastConsume = true) (hf : Fair Go.tryClaimGuestSlot base s.view ledger)
    (hg : Genuine s.slot s.guest s.processor h) (hreclaims : (s.guest t).reclaims = false)
    (hmove : ∀ age, move ≠ .tryReclaim age) (hexpire : move ≠ .expire)
    (hstep : s.step config (.guest t move) = some s') :
    Genuine s'.slot s'.guest s'.processor (recordGuest h t (s.guest t) move) := by
  obtain ⟨slot', pc', hguest, rfl⟩ := GuestSystem.step_guest hstep
  have hpossession : Possession Go.tryClaimGuestSlot s.slot.state (fun u => (s.guest u).phase) :=
    hf.possession
  cases hpc : s.guest t with
  | idle =>
    rw [hpc] at hguest
    cases move with
    | call call =>
      simp only [guestStep] at hguest
      split at hguest
      · cases hguest
        exact hg.look rfl (sameData_words _) trivial
      · cases hguest
        exact hg.look rfl (sameData_words _) trivial
    | tryReclaim age => exact absurd rfl (hmove age)
    | _ => cases hguest
  | claiming call pc =>
    rw [hpc] at hguest
    have hlawful : pc.Lawful Go.tryClaimGuestSlot := by
      have hlawful := hf.lawful t
      rwa [show s.view.seat t = .claiming pc from congrArg GuestPc.standing hpc] at hlawful
    cases move with
    | advance now =>
      cases hguest
      refine genuine_claim hg hpossession hlawful ?_ (claim_change _ now s.slot pc)
      rintro current rfl hcurrent
      exact (hf.steals tryClaimGuestSlot_proper t current
        (congrArg GuestPc.standing hpc) hcurrent).2
    | _ => cases hguest
  | reclaiming pc => rw [hpc] at hreclaims; cases hreclaims
  | sending call pc =>
    rw [hpc] at hguest
    cases move with
    | advance now =>
      cases hguest
      exact genuine_send now hfast hg hpossession hpc
    | expire => exact absurd rfl hexpire
    | _ => cases hguest

/-- The claims and the traffic of a run, recorded side by side. -/
def recordFast (s : GuestSystem Tid Pid) (a : GuestAction Tid Pid) (s' : GuestSystem Tid Pid)
    (h : Ledger Tid × GuestTraffic Tid Pid) : Ledger Tid × GuestTraffic Tid Pid :=
  (recordGuestClaims s a s' h.1, recordCalls s a s' h.2)

/-- The steps of an orderly run without reclaim and without timeouts. -/
def FastOrderly (p : GuestSystem Tid Pid × Ledger Tid × GuestTraffic Tid Pid)
    (a : GuestAction Tid Pid) : Prop :=
  a.expires = false ∧ GuestOrderly (p.1, p.2.1) a

structure FastInv (base : Nat) (s : GuestSystem Tid Pid)
    (h : Ledger Tid × GuestTraffic Tid Pid) : Prop where
  plain : ∀ t, (s.guest t).reclaims = false
  fair : Fair Go.tryClaimGuestSlot base s.view h.1
  genuine : Genuine s.slot s.guest s.processor h.2

omit [DecidableEq Tid] [DecidableEq Pid] in
theorem fastInv_initial {s : GuestSystem Tid Pid} (h : s.Initial) :
    FastInv s.slot.gen s (.empty, .empty) where
  plain t := by rw [h.idle t]; rfl
  fair := fair_initial (v := s.view) (fun t => congrArg GuestPc.standing (h.idle t)) h.gen
  genuine := by
    apply (account_initial h.free h.scanning).genuine
    intro t
    rw [h.idle t]
    trivial

theorem fastInv_step {config : GuestConfig} {base : Nat}
    {s s' : GuestSystem Tid Pid} {both : Ledger Tid × GuestTraffic Tid Pid}
    {a : GuestAction Tid Pid} (hfast : config.fastConsume = true) (hp : FastInv base s both)
    (hguard : FastOrderly (s, both) a) (hsystem : s.step config a = some s') :
    FastInv base s' (recordFast s a s' both) := by
  obtain ⟨ledger, h⟩ := both
  obtain ⟨hexpires, horderly⟩ := hguard
  obtain ⟨hplain, hfair⟩ := guestFair_step hp.plain hp.fair horderly hsystem
  refine ⟨hplain, hfair, ?_⟩
  cases a with
  | guest t move =>
    refine genuine_guest hfast hp.fair hp.genuine (hp.plain t) ?_ ?_ hsystem
    · rintro age rfl
      cases horderly.1
    · rintro rfl
      cases hexpires
  | processor q move =>
    obtain ⟨slot', pc', hprocessor, rfl⟩ := GuestSystem.step_processor hsystem
    exact genuine_processor hp.genuine hp.fair.possession.allows hprocessor

/-- On the fast path, in every orderly run without timeouts: a sender's release fails
or frees the slot of its own claim, every call returns the response to its own
request, and nobody frees the slot of a sender that still waits or reads, or drops
its flag. -/
theorem fast_consume_safe (config : GuestConfig) (start s : GuestSystem Tid Pid)
    (h : Ledger Tid × GuestTraffic Tid Pid) (hfast : config.fastConsume = true)
    (hstart : start.Initial)
    (hreach : Reachable (recorded (GuestSystem.step config) recordFast) FastOrderly
      (start, .empty, .empty) (s, h)) : FastConsumeSafe config s h := by
  have hinv : FastInv start.slot.gen s h :=
    hreach.recorded_invariant (FastInv start.slot.gen) (fastInv_initial hstart)
      (fun _ _ _ _ hp hguard hstep => fastInv_step hfast hp hguard hstep)
  exact safe_of_fair hinv.fair hinv.genuine

/-- The sender `true` has read its response and dropped its flag. The sender `false`
recycles the slot, and its own answer arrives before the first release. -/
def lateReleaseRun : List (GuestAction Bool Unit) :=
  guestCallRun Unit true ++ processRun Bool () ++ guestAdvances Unit true 6 ++
    [.guest false (.call ⟨[2], .normal⟩)] ++ guestAdvances Unit false 13 ++ processRun Bool ()

/-- Without order the release frees the slot of another sender that waits. -/
theorem fast_release_frees_other :
    ¬ ∀ s h, Reachable (recorded (GuestSystem.step ⟨⟨true, 1⟩, false, false⟩) recordFast)
      (fun _ a => a.expires = false ∧ a.reclaims = false)
      (smallGuestStart Bool Unit, .empty, .empty) (s, h) →
      FastConsumeSafe ⟨⟨true, 1⟩, false, false⟩ s h := by
  intro hall
  obtain ⟨p, hreach, htest⟩ := exists_reachable_of_exec
    (recorded (GuestSystem.step ⟨⟨true, 1⟩, false, false⟩) recordFast)
    (fun _ a => a.expires = false ∧ a.reclaims = false)
    (smallGuestStart Bool Unit, .empty, .empty)
    (fun _ a => !a.expires && !a.reclaims) (fun _ _ hcheck => by simpa using hcheck)
    lateReleaseRun
    (fun p => p.1.guest true = .sending ⟨[1], .normal⟩ (.release true (.response [0])) &&
      p.1.slot.state = .respReady && p.2.1.claims = 2 && p.2.1.own true = 1) (by decide)
  simp only [Bool.and_eq_true, decide_eq_true_eq] at htest
  obtain ⟨⟨⟨hpc, hstate⟩, hclaims⟩, hown⟩ := htest
  have hsame := (hall p.1 p.2 hreach).release true _ _ hpc hstate
  rw [hclaims, hown] at hsame
  cases hsame

/-- Of two threads the other one is not claiming, and this one does not publish. -/
def actsBeside (v : Tenancy Bool) (h : Ledger Bool) (actor : Option Bool) : Bool :=
  h.bumps < genPeriod && actor.all fun t => v.seat t ≠ .tenant .armed && (v.claim (!t)).isNone

theorem orderly_of_actsBeside {rules : ClaimRules} {v : Tenancy Bool} {h : Ledger Bool}
    {actor : Option Bool} (hcheck : actsBeside v h actor = true) : Orderly rules v h actor := by
  simp only [actsBeside, Bool.and_eq_true, decide_eq_true_eq, Option.all_eq_true] at hcheck
  obtain ⟨hround, hothers⟩ := hcheck
  refine ⟨?_, ?_, ?_⟩
  · intro t gen hactor _ _ u hu pc hseat
    have hnone := (hothers t hactor).2
    rw [← Bool.eq_not_of_ne hu, Tenancy.claim, hseat] at hnone
    cases hnone
  · exact fun _ _ _ _ _ => Nat.lt_of_le_of_lt (Nat.sub_le _ _) hround
  · exact fun t hactor harmed => absurd harmed (hothers t hactor).1

/-- The sender `true` has read its response and dropped its flag. The sender `false`
recycles the slot before the release of the first one. -/
def overtakenReleaseRun : List (GuestAction Bool Unit) :=
  guestCallRun Unit true ++ processorAdvances Bool () 4 ++
    [.processor () .handlerReads, .processor () (.handlerWrites [7, 8]),
      .processor () (.handlerReturns 2)] ++ processorAdvances Bool () 4 ++
    guestAdvances Unit true 6 ++ [.guest false (.call ⟨[2], .normal⟩)] ++
    guestAdvances Unit false 8

theorem fast_consume_safe_twoSenders :
    ∃ p : GuestSystem Bool Unit × Ledger Bool × GuestTraffic Bool Unit,
      GuestReturns ⟨⟨true, 1⟩, false, false⟩ p.1 true ⟨[1], .normal⟩ [7, 8] ∧
        p.2.1.claims = 2 ∧ p.1.slot.state = .guestBusy ∧
        FastConsumeSafe ⟨⟨true, 1⟩, false, false⟩ p.1 p.2 := by
  obtain ⟨p, hreach, htest⟩ := exists_reachable_of_exec
    (recorded (GuestSystem.step ⟨⟨true, 1⟩, false, false⟩) recordFast) FastOrderly
    (smallGuestStart Bool Unit, .empty, .empty)
    (fun p a => !a.expires && (!a.reclaims && (actsAlone p.1.view p.2.1 a.actor ||
      actsBeside p.1.view p.2.1 a.actor)))
    (by
      intro p a hcheck
      simp only [Bool.and_eq_true, Bool.not_eq_true', Bool.or_eq_true] at hcheck
      exact ⟨hcheck.1, hcheck.2.1, hcheck.2.2.elim orderly_of_actsAlone orderly_of_actsBeside⟩)
    overtakenReleaseRun
    (fun p => p.1.guest true = .sending ⟨[1], .normal⟩ (.release true (.response [7, 8])) ∧
      p.2.1.claims = 2 ∧ p.1.slot.state = .guestBusy)
    (by decide)
  obtain ⟨hpc, hclaims, hstate⟩ := of_decide_eq_true htest
  exact ⟨p, ⟨0, _, hpc, rfl⟩, hclaims, hstate,
    fast_consume_safe ⟨⟨true, 1⟩, false, false⟩ (smallGuestStart Bool Unit) p.1 p.2 rfl
      (smallGuestStart_initial Bool Unit) hreach⟩

end ShmIpc.Slots
