import LogStore.Reply

/-!
# Faults

The ways in which the bytes of a client, or of the log, can fail to be a request. Each is the end of
the session, or of the replay, on which it occurs.
-/

namespace LogStore

/-- Why bytes are not a request. -/
inductive Fault where
  /-- The line behind `*` is not a count, or the count is too large. -/
  | badCount
  /-- The line behind `$` is not a length, or the length is too large. -/
  | badLength
  /-- Another character stands where a bulk string should begin with `$`. -/
  | notBulk (found : Char)
  /-- A bulk string is not followed by the line end. -/
  | badTerminator
  /-- A quote of an inline request is not closed, or stands inside a word. -/
  | unbalancedQuotes
  /-- An inline request goes on for too long without a line feed. -/
  | lineTooLong
  deriving DecidableEq, Repr

namespace Fault

/-- The text that reports the fault. -/
def message : Fault → String
  | .badCount => "Protocol error: invalid multibulk length"
  | .badLength => "Protocol error: invalid bulk length"
  | .notBulk found => "Protocol error: expected '$', got '" ++ found.toString ++ "'"
  | .badTerminator => "Protocol error: invalid bulk terminator"
  | .unbalancedQuotes => "Protocol error: unbalanced quotes in request"
  | .lineTooLong => "Protocol error: too big inline request"

/-- The reply that tells a client before its session is closed. -/
def reply (fault : Fault) : Reply :=
  .failure fault.message

end Fault

end LogStore
