import Mathlib.Algebra.Order.Ring.Int

/-!
The vocabulary both processes share: message types, slot states and the errors
of the C++ interface. Message
types are an open 32-bit range on the wire, so every code the two sides do not
name themselves stays available to the application.
-/

namespace ShmIpc

inductive MsgType
  | normal
  | heartbeatReq
  | heartbeatResp
  | shutdown
  | flatbuffer
  | guestCall
  | streamStart
  | streamChunk
  | systemError
  | other (code : Nat)
  deriving DecidableEq, Repr

inductive SlotState
  | free
  | reqReady
  | respReady
  | done
  | busy
  | guestBusy
  deriving DecidableEq, Repr

inductive Error
  | timeout
  | bufferTooSmall
  | invalidArgs
  | notConnected
  | resourceExhausted
  | internalError
  | protocolViolation
  deriving DecidableEq, Repr

end ShmIpc
