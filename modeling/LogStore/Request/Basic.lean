import LogStore.Request.Head

/-!
# Requests

A request is a complete frame with its bytes cut out. It keeps its raw bytes beside its arguments,
because the log records requests exactly as they were received.
-/

namespace LogStore

/-- A decoded request. -/
structure Request where
  /-- The bytes the request was decoded from. -/
  raw : Bytes
  /-- The name of the command and its arguments; empty for a request that asks for nothing. -/
  arguments : List Bytes
  /-- The form in which it was written. -/
  framing : Framing
  /-- Whether replies and staged writes are to be pushed out behind this request. -/
  flush : Bool
  deriving DecidableEq, Repr

/-- Cuts the request of a frame out of the buffer in which it was found. -/
def Frame.cut (frame : Frame) (buffer : Bytes) : Request :=
  let raw := buffer.take frame.length
  { raw, arguments := frame.arguments.map (·.slice raw), framing := frame.framing, flush := true }

end LogStore
