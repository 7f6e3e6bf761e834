import LogStore.Vocabulary
import LogStore.Notice
import LogStore.Request.Transcript

/-!
# Replay

The log is a sequence of requests, and the keyspace is what they leave when they are carried out
again in order. Replies are dropped. A request that is refused, or whose command is unknown, is
reported; it still counts as replayed. A request without arguments is passed over.
-/

namespace LogStore

/-- How far a replay has come. -/
structure Replay where
  /-- The keyspace as the requests so far have left it. -/
  keyspace : Keyspace
  /-- The number of requests so far that asked for something. -/
  count : Nat := 0
  /-- What there was to report, in order. -/
  warnings : List Notice := []
  deriving DecidableEq

namespace Replay

/-- Carries out one request of the log. -/
def step (vocabulary : Vocabulary) (replay : Replay) (request : Request) : Replay :=
  match request.arguments with
  | [] => replay
  | name :: arguments =>
    match vocabulary.lookup name with
    | none =>
      { replay with
        count := replay.count + 1
        warnings := replay.warnings ++ [.replayUnknown name] }
    | some entry =>
      let (answer, keyspace) := entry.operation.run replay.keyspace arguments
      let next := { replay with keyspace, count := replay.count + 1 }
      match answer with
      | .ok _ => next
      | .error e => { next with warnings := replay.warnings ++ [.replayFailed entry.name e] }

/-- Carries out requests of the log in order. -/
def run (vocabulary : Vocabulary) (replay : Replay) (requests : List Request) : Replay :=
  requests.foldl (step vocabulary) replay

/-- A replay goes on where the one before it stopped. -/
theorem run_append (vocabulary : Vocabulary) (replay : Replay) (a b : List Request) :
    run vocabulary replay (a ++ b) = run vocabulary (run vocabulary replay a) b :=
  List.foldl_append

end Replay

/-- The replay of the requests that were read. Those before a fault are carried out. -/
def Transcript.replay (transcript : Transcript) (vocabulary : Vocabulary) (keyspace : Keyspace) :
    Replay :=
  Replay.run vocabulary { keyspace } transcript.requests

/-- The replay of all requests of a source into a keyspace, and how the source ended. -/
def Source.replay (source : Source) (vocabulary : Vocabulary) (keyspace : Keyspace) :
    Replay × Except ReadFailure Unit :=
  (source.transcript.replay vocabulary keyspace, source.transcript.outcome)

end LogStore
