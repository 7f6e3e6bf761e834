import LogStore.Bytes

/-!
# The outbox

Replies to a client are gathered and sent together. What is gathered stays within `Outbox.capacity`:
a reply that does not fit pushes out what is there, and one as long as the whole outbox is sent on
its own. A socket either takes what it is given or, once the client is gone, refuses everything.
-/

namespace LogStore

/-- The way to a client. -/
structure Outbox where
  /-- The bytes that were gathered and not sent. -/
  gathered : Bytes := []
  /-- The bytes that the socket has taken. -/
  sent : Bytes := []
  /-- Whether the client is gone, so that its socket takes nothing. -/
  gone : Bool := false
  deriving DecidableEq, Repr

namespace Outbox

/-- The most bytes that are gathered. -/
def capacity : Nat := 8192

/-- Gives the gathered bytes to the socket. Returns whether it took them; where there are none, the
socket is not used. -/
def flush (outbox : Outbox) : Bool × Outbox :=
  if outbox.gathered = [] then (true, outbox)
  else if outbox.gone then (false, outbox)
  else (true, { outbox with gathered := [], sent := outbox.sent ++ outbox.gathered })

/-- Adds a reply behind what is gathered, with room for it. -/
def gather (outbox : Outbox) (reply : Bytes) : Bool × Outbox :=
  if reply.length < capacity then
    (true, { outbox with gathered := outbox.gathered ++ reply })
  else if outbox.gone then (false, outbox)
  else (true, { outbox with sent := outbox.sent ++ reply })

/-- Takes a reply. Returns whether the socket took what had to be sent on the way. -/
def push (outbox : Outbox) (reply : Bytes) : Bool × Outbox :=
  if outbox.gathered.length + reply.length ≤ capacity then outbox.gather reply
  else
    match outbox.flush with
    | (true, outbox) => outbox.gather reply
    | (false, outbox) => (false, outbox)

end Outbox

end LogStore
