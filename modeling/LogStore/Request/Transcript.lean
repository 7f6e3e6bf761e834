import LogStore.Request.Reader

/-!
# Reading to the end

A transcript is everything that a reader hands out until, for the first time, it answers with
something other than a request. Each request uses up bytes, so there is always such an answer.
-/

namespace LogStore

/-- The requests that a source holds, and how reading them ended. -/
structure Transcript where
  /-- The requests, in order. -/
  requests : List Request
  /-- A clean end of the source, or the error that ended the reading. -/
  outcome : Except ReadFailure Unit
  /-- The reader as it is left. -/
  reader : Reader
  /-- What the source has still to deliver. -/
  source : Source

namespace Reader

/-- Reads on to the end; `requests` are those read before, latest first. -/
def readOn (reader : Reader) (source : Source) (requests : List Request) : Transcript :=
  match _h : reader.read source with
  | (.ok (some request), reader, source) => readOn reader source (request :: requests)
  | (.ok none, reader, source) => ⟨requests.reverse, .ok (), reader, source⟩
  | (.error e, reader, source) => ⟨requests.reverse, .error e, reader, source⟩
termination_by reader.backlog + 2 * source.bytes.length
decreasing_by exact backlog_read_lt _h

/-- All requests that a reader hands out before another answer. -/
def readAll (reader : Reader) (source : Source) : Transcript :=
  readOn reader source []

end Reader

/-- All requests of a source, read by a fresh reader. -/
def Source.transcript (source : Source) : Transcript :=
  ({} : Reader).readAll source

end LogStore
