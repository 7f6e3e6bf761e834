import LogStore.Request.Scan

/-!
# Frames

A frame says where a complete request lies: how many bytes it takes from the head of a buffer, and
which of them are its arguments. It holds positions only, so that the bytes of a request need to be
cut out once, when it is known to be complete.
-/

namespace LogStore

/-- The bytes from position `start` up to, and without, position `stop`. -/
structure Span where
  /-- The position of the first byte. -/
  start : Nat
  /-- The position behind the last byte. -/
  stop : Nat
  deriving DecidableEq, Repr

/-- The bytes of a buffer that lie in a span. -/
def Span.slice (span : Span) (bytes : Bytes) : Bytes :=
  (bytes.drop span.start).take (span.stop - span.start)

/-- The two forms of a request. -/
inductive Framing where
  /-- A line of words. -/
  | inline
  /-- A count, then that many bulk strings, each behind its length. -/
  | multibulk
  deriving DecidableEq, Repr

/-- The place of one complete request at the head of a buffer. -/
structure Frame where
  /-- The number of bytes that the request takes. -/
  length : Nat
  /-- The places of its arguments, in order. -/
  arguments : List Span
  /-- The form in which it is written. -/
  framing : Framing
  deriving DecidableEq, Repr

end LogStore
