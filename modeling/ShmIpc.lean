import ShmIpc.Library.Placement
import ShmIpc.Library.Assoc
import ShmIpc.Stream.Wire
import ShmIpc.Stream.Context
import ShmIpc.Stream.Tracking
import ShmIpc.Stream.Consume
import ShmIpc.Stream.Completeness
import ShmIpc.Stream.EndToEnd
import ShmIpc.Stream.LateWorker
import ShmIpc.Slots.HostSystem
import ShmIpc.Slots.Ownership
import ShmIpc.Slots.Publish
import ShmIpc.Slots.Traffic
import ShmIpc.Slots.FreshResponse
import ShmIpc.Slots.SingleCaller
import ShmIpc.Slots.HeldSession
import ShmIpc.Library.Handshake
import ShmIpc.Slots.ClaimLedger
import ShmIpc.Slots.Takeover
import ShmIpc.Slots.HostRefinement
import ShmIpc.Slots.GuestThread
import ShmIpc.Slots.Processor
import ShmIpc.Slots.GuestRefinement
import ShmIpc.Slots.StealRight
import ShmIpc.Slots.GuestTraffic
import ShmIpc.Slots.FastConsume
import ShmIpc.Slots.GuestPublish
import ShmIpc.Slots.Recovery
import ShmIpc.Slots.ReclaimRace
import ShmIpc.Stream.Parity
import ShmIpc.Stream.HandlerInvariant
import ShmIpc.Stream.HandlerRuns
import ShmIpc.Stream.HandlerTrace
import ShmIpc.Stream.HandlerSafety
import ShmIpc.Stream.ActivityWrap
import ShmIpc.Stream.ReclaimedContexts
import ShmIpc.Stream.GuestSender
import ShmIpc.Stream.HostSide
import ShmIpc.Stream.GuestSendInvariant
import ShmIpc.Stream.GuestSendRuns
import ShmIpc.Stream.Verdict
import ShmIpc.Stream.GuestWindow
import ShmIpc.Stream.StateInvariant
import ShmIpc.Slots.Doorbell
import ShmIpc.Library.Ring
import ShmIpc.Ring.RingBuffer
import ShmIpc.Ring.Fifo
import ShmIpc.Segment.Agreement
import ShmIpc.Library.MachineInt
import ShmIpc.Slots.SizeField
import ShmIpc.Slots.RoundTrip
import ShmIpc.Segment.Attach
import ShmIpc.Slots.Oversize
import ShmIpc.Stream.StartRules
import ShmIpc.Stream.Rejections
import ShmIpc.Stream.RoutingTag
import ShmIpc.Library.Unwinding
import ShmIpc.Stream.Isolation
import ShmIpc.Stream.Residency
import ShmIpc.Library.Halting
import ShmIpc.Stream.SendLoop
import ShmIpc.Stream.SenderReturns
import ShmIpc.Stream.SenderHangs
import ShmIpc.Library.Family
import ShmIpc.Slots.GuestHandle
import ShmIpc.Slots.GuestCalls
import ShmIpc.Library.Residues
import ShmIpc.Ring.HostileHeader
import ShmIpc.Slots.Acquisition
import ShmIpc.Slots.RequestBounds
import ShmIpc.Slots.SequenceNumbers
import ShmIpc.Slots.SpinWait
import ShmIpc.Library.ForkJoin
import ShmIpc.Library.Recency
import ShmIpc.Library.Tenure
import ShmIpc.Slots.Disown
import ShmIpc.Stream.HeaderWrites
import ShmIpc.Stream.InlineSend
import ShmIpc.Stream.GuestSendRefinement
import ShmIpc.Stream.LeastRecent
import ShmIpc.Stream.SameStream
import ShmIpc.Library.FlatMemory
import ShmIpc.Slots.SmallCopy
import ShmIpc.Library.Doorbell
import ShmIpc.Slots.HostBell
import ShmIpc.Slots.HostDoorbells
import ShmIpc.Slots.ExchangeProgress
import ShmIpc.Slots.GuestClose
import ShmIpc.Slots.Recoverable
import ShmIpc.Slots.NestedCalls
