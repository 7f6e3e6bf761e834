import LogStore.Log.Basic

/-!
# The engine

The engine is what all clients share: the keyspace, the raw bytes of the writes that the log has yet
to get, and the log. Carrying out a request changes the keyspace and these staged bytes together and
never reaches the log; `Engine.flush` moves the staged bytes to the log. So the log followed by the
staged bytes is the sequence of successful writes, as long as no write to the log fails: the bytes
of a flush that fails are gone.
-/

namespace LogStore

/-- What carrying out a request calls for. -/
inductive Outcome where
  /-- Nothing is answered. -/
  | silent
  /-- This reply is sent. -/
  | reply (reply : Reply)
  /-- The client takes its leave. -/
  | quit
  deriving Repr

/-- The keyspace with its log. -/
structure Engine where
  /-- The choices it was started with. -/
  settings : Settings
  /-- The commands it knows. -/
  vocabulary : Vocabulary
  /-- The keys and their values. -/
  keyspace : Keyspace
  /-- The raw bytes of successful writes that are not in the log yet, in order. -/
  staged : Bytes := []
  /-- The log. -/
  log : Log

namespace Engine

/-- An engine over an open log, which is replayed first, and what there was to report. -/
def ofLog (settings : Settings) (vocabulary : Vocabulary) (log : Log) :
    Except LogError Engine × List Notice :=
  let loaded := log.load vocabulary .empty
  let notices := .commandsRegistered vocabulary.size :: loaded.replay.warnings
  match loaded.outcome with
  | .error e => (.error e, notices)
  | .ok () =>
    (.ok { settings, vocabulary, keyspace := loaded.replay.keyspace, log := loaded.log },
      notices ++ [.logLoaded loaded.replay.count log.path])

/-- The name with which a client takes its leave. -/
def quitName : Bytes := Utf8.encode "quit"

/-- The name with which a client asks for a sign of life. -/
def pingName : Bytes := Utf8.encode "ping"

/-- Carries out a request. `quit` and `ping` come before anything registered under these names. What
an operation leaves of the keyspace is kept, whatever it answers. A write that succeeds is staged for
the log as it was received. -/
def execute (engine : Engine) (request : Request) : Outcome × Engine :=
  match request.arguments with
  | [] => (.silent, engine)
  | name :: arguments =>
    if name.toLower = quitName then (.quit, engine)
    else if name.toLower = pingName then (.reply (.simple "PONG"), engine)
    else
      match engine.vocabulary.lookup name with
      | none => (.reply (Refusal.unknownName (Utf8.decodeLossy name)).reply, engine)
      | some entry =>
        let (answer, keyspace) := entry.operation.run engine.keyspace arguments
        let next := { engine with keyspace }
        match answer with
        | .error e => (.reply e.reply, next)
        | .ok reply =>
          match entry.operation.access with
          | .read => (.reply reply, next)
          | .write => (.reply reply, { next with staged := engine.staged ++ request.raw })

/-- Moves the staged bytes to the log. They leave the stage before the log is written, so a write
that fails loses them. -/
def flush (engine : Engine) : Except LogError Unit × Engine :=
  if engine.staged = [] then (.ok (), engine)
  else
    let (result, log) := engine.log.append engine.staged
    (result, { engine with staged := [], log })

end Engine

end LogStore
