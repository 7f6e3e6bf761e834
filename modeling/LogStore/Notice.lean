import LogStore.Operation
import LogStore.Log.Failure

/-!
# Notices

What the service tells the person who runs it. Clients never see these.
-/

namespace LogStore

/-- How much a notice matters. -/
inductive Level where
  | info
  | warn
  | error
  deriving DecidableEq, Repr

/-- The name of a level. -/
def Level.name : Level → String
  | .info => "info"
  | .warn => "warn"
  | .error => "error"

/-- Something that happened to the service. -/
inductive Notice where
  /-- There are `count` commands in the vocabulary. -/
  | commandsRegistered (count : Nat)
  /-- A command of the log, registered under `name`, was refused. -/
  | replayFailed (name : String) (refusal : Refusal)
  /-- A command of the log has a name that is not in the vocabulary. -/
  | replayUnknown (name : Bytes)
  /-- The log was read back. -/
  | logLoaded (count : Nat) (path : String)
  /-- The service waits for clients. -/
  | listening (address : String)
  /-- A client could not be let in. -/
  | acceptFailed (cause : SystemError)
  /-- The log failed and the service stops. -/
  | stopped (error : LogError)
  deriving DecidableEq, Repr

namespace Notice

/-- How much the notice matters. -/
def level : Notice → Level
  | .commandsRegistered _ | .logLoaded .. | .listening _ => .info
  | .replayFailed .. | .replayUnknown _ | .acceptFailed _ => .warn
  | .stopped _ => .error

/-- The text of the notice. -/
def message : Notice → String
  | .commandsRegistered count => toString count ++ " commands registered"
  | .replayFailed name e => "replayed " ++ name ++ " command failed: " ++ e.message
  | .replayUnknown name =>
    "unknown command '" ++ Utf8.decodeLossy name ++ "' in append only file"
  | .logLoaded count path => "AOF loaded " ++ toString count ++ " commands from " ++ path
  | .listening address => "listening on " ++ address
  | .acceptFailed cause => "failed to accept connection: " ++ cause.message
  | .stopped e => e.message

/-- The notice as one line: its level and its text. -/
def line (notice : Notice) : String :=
  notice.level.name ++ ": " ++ notice.message

end Notice

end LogStore
