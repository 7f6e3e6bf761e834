import LogStore.Request.Basic
import LogStore.Request.Source

/-!
# Reading requests

A reader holds the bytes that have arrived and not yet been handed out. It always looks from the
head of its buffer and asks its source for more only when the buffer does not tell yet.

A multibulk request is handed out together with the news whether another complete request already
stands behind it. If one does, it is decoded at once and kept `ahead`, and the replies may wait for
it; otherwise the request is a point at which everything is flushed. A fault found behind a request
is kept ahead in the same way. It is reported by the next call; the bytes that caused it stay.
-/

namespace LogStore

/-- Why no request could be read. -/
inductive ReadFailure where
  /-- The bytes are not a request. -/
  | malformed (fault : Fault)
  /-- The source could not be read. -/
  | unreadable (message : String)
  /-- The source ended inside a request, of which `pending` bytes have come. -/
  | truncated (pending : Nat)
  deriving DecidableEq, Repr

/-- The text that reports the failure. -/
def ReadFailure.message : ReadFailure → String
  | .malformed fault => fault.message
  | .unreadable message => "I/O error: " ++ message
  | .truncated pending => "input ended inside a command (" ++ toString pending ++ " bytes pending)"

/-- The state of a reader. -/
structure Reader where
  /-- The bytes that have arrived and belong to no request yet. -/
  buffer : Bytes := []
  /-- What has been found behind the request handed out last. -/
  ahead : Option (Except Fault Request) := none
  deriving Repr

/-- The answer of a reader: a request, the end of the source, or an error. -/
abbrev Reader.Answer := Except ReadFailure (Option Request)

namespace Reader

/-- Looks behind a request that is about to be handed out and sets its flush flag. -/
def handOut (request : Request) (buffer : Bytes) : Request × Reader :=
  match request.framing with
  | .inline => ({ request with flush := true }, { buffer })
  | .multibulk =>
    match Frame.scan buffer with
    | .incomplete => ({ request with flush := true }, { buffer })
    | .malformed fault => ({ request with flush := true }, { buffer, ahead := some (.error fault) })
    | .found frame =>
      ({ request with flush := false },
        { buffer := buffer.drop frame.length, ahead := some (.ok (frame.cut buffer)) })

/-- The answer that needs no more bytes, if there is one. -/
def poll (reader : Reader) : Option (Except Fault Request × Reader) :=
  match reader.ahead with
  | some (.ok request) =>
    let handed := handOut request reader.buffer
    some (.ok handed.1, handed.2)
  | some (.error fault) => some (.error fault, { reader with ahead := none })
  | none =>
    match Frame.scan reader.buffer with
    | .incomplete => none
    | .malformed fault => some (.error fault, reader)
    | .found frame =>
      let handed := handOut (frame.cut reader.buffer) (reader.buffer.drop frame.length)
      some (.ok handed.1, handed.2)

/-- Whether the reader has to ask its source. -/
def needsBytes (reader : Reader) : Bool :=
  reader.poll.isNone

/-- Adds bytes that have arrived. -/
def receive (reader : Reader) (bytes : Bytes) : Reader :=
  { reader with buffer := reader.buffer ++ bytes }

/-- The answer when the source has ended and the buffer holds no complete request. -/
def atEnd (reader : Reader) : Answer :=
  if reader.buffer = [] then .ok none else .error (.truncated reader.buffer.length)

/-- The next answer, with the reader and the source as they are left. The source is asked only when
needed, once for each delivery. -/
def read (reader : Reader) (source : Source) : Answer × Reader × Source :=
  match reader.poll with
  | some (.ok request, next) => (.ok (some request), next, source)
  | some (.error fault, next) => (.error (.malformed fault), next, source)
  | none =>
    match source with
    | [] => (reader.atEnd, reader, [])
    | .failure message :: rest => (.error (.unreadable message), reader, rest)
    | .data [] :: rest => (reader.atEnd, reader, rest)
    | .data (b :: bytes) :: rest => (reader.receive (b :: bytes)).read rest

/-! ## Every request uses up bytes -/

/-- A bound for the requests that a reader can still hand out without asking its source: at most one
that is kept ahead, and one for each byte of the buffer. A byte counts twice, so that moving a
request ahead uses up something too. -/
def backlog (reader : Reader) : Nat :=
  match reader.ahead with
  | some (.ok _) => 2 * reader.buffer.length + 1
  | _ => 2 * reader.buffer.length

theorem backlog_handOut_le (request : Request) (buffer : Bytes) :
    (handOut request buffer).2.backlog ≤ 2 * buffer.length := by
  unfold handOut
  split
  · exact Nat.le_refl _
  · split
    · exact Nat.le_refl _
    · exact Nat.le_refl _
    · have := Frame.length_drop_lt ‹_›
      simp only [backlog]
      omega

theorem backlog_poll_lt {reader next : Reader} {request : Request}
    (h : reader.poll = some (.ok request, next)) : next.backlog < reader.backlog := by
  unfold poll at h
  split at h
  · rename_i ahead hahead
    have := backlog_handOut_le ahead reader.buffer
    have : reader.backlog = 2 * reader.buffer.length + 1 := by simp [backlog, hahead]
    cases h
    omega
  · cases h
  · rename_i hahead
    have : reader.backlog = 2 * reader.buffer.length := by simp [backlog, hahead]
    split at h
    · cases h
    · cases h
    · rename_i frame hframe
      have hle := backlog_handOut_le (frame.cut reader.buffer) (reader.buffer.drop frame.length)
      have hlt := Frame.length_drop_lt hframe
      cases h
      omega

theorem backlog_poll_error_le {reader next : Reader} {fault : Fault}
    (h : reader.poll = some (.error fault, next)) : next.backlog ≤ reader.backlog := by
  unfold poll at h
  split at h
  · cases h
  · rename_i hahead
    cases h
    simp [backlog, hahead]
  · split at h
    · cases h
    · cases h
      exact Nat.le_refl _
    · cases h

theorem backlog_receive (reader : Reader) (bytes : Bytes) :
    (reader.receive bytes).backlog = reader.backlog + 2 * bytes.length := by
  unfold backlog receive
  simp only [List.length_append]
  split <;> omega

/-- The end of the source is no request. -/
theorem atEnd_ne_request (reader : Reader) (request : Request) :
    reader.atEnd ≠ .ok (some request) := by
  unfold atEnd
  split <;> intro h <;> cases h

/-- A request that is read leaves less to be read, in the reader and its source together. -/
theorem backlog_read_lt {reader next : Reader} {source rest : Source} {request : Request}
    (h : reader.read source = (.ok (some request), next, rest)) :
    next.backlog + 2 * rest.bytes.length < reader.backlog + 2 * source.bytes.length := by
  induction source generalizing reader with
  | nil =>
    unfold read at h
    split at h
    · have := backlog_poll_lt ‹_›
      cases h
      omega
    · cases h
    · exact absurd (congrArg Prod.fst h) (atEnd_ne_request reader request)
  | cons d source ih =>
    unfold read at h
    split at h
    · have := backlog_poll_lt ‹_›
      cases h
      omega
    · cases h
    · split at h
      · contradiction
      · cases h
      · exact absurd (congrArg Prod.fst h) (atEnd_ne_request reader request)
      · rename_i b bytes tail heq
        cases heq
        have := ih h
        rw [backlog_receive] at this
        simp only [Source.bytes_cons, Delivery.bytes, List.length_append]
        omega

end Reader

end LogStore
