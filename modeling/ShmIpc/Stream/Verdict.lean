import ShmIpc.Stream.GuestSendRuns

/-!
What a guest sender learns about its stream. The host's handler gets the message type by
value, so the verdict `Handle` writes into it stays in the handler, and the response goes
out with the type of the request. A `Send` whose messages the host has no reason to
reject returns without an error only if the host delivered the stream; a rejection is
never seen by the sender.
-/

namespace ShmIpc.Stream.Go
open Library

/-- The delivery a `Send` is for. -/
def GuestSend.delivery (P : GuestSend) : Delivery :=
  ⟨P.streamID.toNat, P.appMsgType.toNat, P.data⟩

namespace GuestSendState

/-- The sender is told of every rejection, and of success only after a delivery. -/
structure Reported (P : GuestSend) (s : GuestSendState) : Prop where
  rejected : (∃ x ∈ s.exchanges, x.answer.map Answer.reply = some .systemError) →
    s.main ≠ .returned none
  delivered : s.main = .returned none → P.delivery ∈ s.delivered

/-- The host has no reason to reject the message it is about to process: a start is
within its bounds and finds a free place, a chunk finds its stream, at its own index or
with room for one more record. -/
def Welcome (s : GuestSendState) : GuestSendAction → Prop
  | .work slot env =>
    match s.slots slot with
    | .published .streamStart req =>
      (parseStreamHeader req).totalSize ≤ s.host.config.maxStreamSize ∧
      (parseStreamHeader req).totalChunks ≤ s.host.config.maxStreamChunks ∧
      ((parseStreamHeader req).totalChunks = 0 ∨
        (count (s.host.pruneInternal env.pruneTime).streams < s.host.config.maxStreams ∧
          env.allocFails = false))
    | .published .streamChunk req =>
      ∃ c, s.host.streams.lookup (parseChunkHeader req).streamId = some c ∧
        ((parseChunkHeader req).chunkIndex = c.next ∨
          (count c.ooo < s.host.config.maxParkedChunks ∧ env.allocFails = false))
    | _ => True
  | _ => True

variable {P : GuestSend} {s s' : GuestSendState}

theorem clean_handled {cfg : Cpp.StreamReassemblerConfig} {slot : Nat} {m : MsgType}
    {req : List UInt8} (h : Inv P s) (hs : HostInv P cfg s) (hclean : Clean s)
    (hpub : s.slots slot = .published m req) (env : Cpp.Surroundings)
    (hwelcome : Welcome s (.work slot env)) : Clean (s.handled slot env m req) := by
  have hreply : (s.host.handle env m req).2.map Answer.reply = some .normal := by
    obtain ⟨hP, hcase⟩ := h.published hpub
    rcases hcase with ⟨rfl, rfl, -⟩ | ⟨i, hi, rfl, rfl, hstarted, hnew⟩
    · simp only [Welcome, hpub, hP.parse_startMsg] at hwelcome
      rw [Cpp.StreamReassembler.handle_streamStart, Option.map_some,
        host_start hP s.host env hwelcome.1 hwelcome.2.1 hwelcome.2.2]
    · simp only [Welcome, hpub, hP.parse_chunk i hi] at hwelcome
      obtain ⟨c, hlook, hroom⟩ := hwelcome
      have hflight : s.host.inFlight P.asHost.streamId = some c.toStreamContext := by
        rw [hP.parse_chunk i hi] at hlook
        exact congrArg (Option.map Cpp.HostContext.toStreamContext) hlook
      rw [Cpp.StreamReassembler.handle_streamChunk, Option.map_some,
        (host_chunk hP (hs.side hclean hstarted) env hi hnew hflight hroom).1]
  intro x hx
  rcases List.mem_append.mp hx with hold | hnew
  · exact hclean x hold
  · rw [List.mem_singleton.mp hnew]
    simp only [hreply]
    intro heq
    cases heq

theorem clean_reachable {cfg : Cpp.StreamReassemblerConfig} {events : List Cpp.Event}
    (hs : Reachable (step P) Welcome (start cfg events) s) : Clean s := by
  induction hs with
  | start =>
    intro x hx
    cases hx
  | step s s' a hs hguard hstep ih =>
    obtain ⟨hinv, hhost⟩ := inv_reachable hs
    cases (inv_step hinv hstep).2 with
    | own a s' hown =>
      rw [Clean, hown.exchanges]
      exact ih
    | handled slot env m req hpub => exact clean_handled hinv hhost ih hpub env hguard
    | elsewhere event s' he =>
      rw [Clean, he.exchanges]
      exact ih

theorem verdict_reported (P : GuestSend) (cfg : Cpp.StreamReassemblerConfig)
    (events : List Cpp.Event) (s : GuestSendState)
    (hs : Reachable (step P) Welcome (start cfg events) s) : Reported P s := by
  have hclean := clean_reachable hs
  obtain ⟨hinv, hhost⟩ := inv_reachable hs
  refine ⟨?_, delivered_of_returned hinv hhost hclean⟩
  rintro ⟨x, hx, hrejected⟩
  exact absurd hrejected (hclean x hx)

end GuestSendState

def threeBytes (maxInFlight : Int) : GuestSend := ⟨26, 0, maxInFlight, [1, 2, 3], 7, 9⟩

def inlineSend : List GuestSendAction :=
  [.main, .acquire 0, .work 0 zeroHost, .main] ++
    [.acquire 0, .work 0 zeroHost, .main] ++ [.acquire 0, .work 0 zeroHost, .main] ++ [.main]

namespace GuestSendState

/-- `Welcome` as a test, for the actions of a run. -/
def welcomes (s : GuestSendState) : GuestSendAction → Bool
  | .work slot env =>
    match s.slots slot with
    | .published .streamStart req =>
      decide ((parseStreamHeader req).totalSize ≤ s.host.config.maxStreamSize) &&
      decide ((parseStreamHeader req).totalChunks ≤ s.host.config.maxStreamChunks) &&
      decide (count (s.host.pruneInternal env.pruneTime).streams < s.host.config.maxStreams) &&
      !env.allocFails
    | .published .streamChunk req =>
      (s.host.streams.lookup (parseChunkHeader req).streamId).any fun c =>
        (parseChunkHeader req).chunkIndex = c.next
    | _ => true
  | _ => true

theorem welcome_of_welcomes (s : GuestSendState) (a : GuestSendAction) (h : s.welcomes a = true) :
    Welcome s a := by
  cases a with
  | main | acquire | acquireTimeout | abort | chunk | other => trivial
  | work slot env =>
    simp only [Welcome]
    simp only [welcomes] at h
    split
    · next req hslot =>
        simp only [hslot, Bool.and_eq_true, decide_eq_true_eq, Bool.not_eq_true'] at h
        exact ⟨h.1.1.1, h.1.1.2, Or.inr ⟨h.1.2, h.2⟩⟩
    · next req hslot =>
        simp only [hslot] at h
        obtain ⟨c, hlook, hnext⟩ := (Option.any_eq_true _ _).mp h
        exact ⟨c, hlook, Or.inl (of_decide_eq_true hnext)⟩
    · trivial

theorem verdict_reported_inlineSend :
    ∃ s : GuestSendState, s.main = .returned none ∧ s.delivered = [⟨7, 9, [1, 2, 3]⟩] ∧
      Reported (threeBytes 1) s := by
  obtain ⟨s, hreach, htest⟩ := exists_reachable_of_exec (step (threeBytes 1)) Welcome
    (start {} []) welcomes welcome_of_welcomes inlineSend
    (fun s => s.main = .returned none ∧ s.delivered = [⟨7, 9, [1, 2, 3]⟩]) (by decide)
  obtain ⟨hreturned, hdelivered⟩ := of_decide_eq_true htest
  exact ⟨s, hreturned, hdelivered, verdict_reported (threeBytes 1) {} [] s hreach⟩

/-- A host that takes streams of two bytes at most rejects the start and both chunks.
`Send` returns without an error, and nothing is delivered. -/
theorem verdict_lost :
    ∃ s : GuestSendState,
      Reachable (step (threeBytes 1)) (fun _ _ => True) (start { maxStreamSize := 2 } []) s ∧
      s.exchanges.map (fun x => x.answer.map Answer.reply) =
        [some .systemError, some .systemError, some .systemError] ∧
      s.delivered = [] ∧ s.main = .returned none := by
  obtain ⟨s, hreach, htest⟩ := exists_reachable_of_run (step (threeBytes 1))
    (start { maxStreamSize := 2 } []) inlineSend
    (fun s => s.exchanges.map (fun x => x.answer.map Answer.reply) =
      [some .systemError, some .systemError, some .systemError] ∧ s.delivered = [] ∧
      s.main = .returned none)
    (by decide)
  exact ⟨s, hreach, of_decide_eq_true htest⟩

end GuestSendState

end ShmIpc.Stream.Go
