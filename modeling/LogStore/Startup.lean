import LogStore.Network
import LogStore.Notice.Filter
import LogStore.Service

/-!
# Starting

A service is started in a fixed order: the log is opened and replayed, and only then is the address
looked at. If something fails, the report names the failure and, below it, what was behind it.
-/

namespace LogStore

/-- Why a service does not run, or no longer. -/
inductive StartError where
  /-- The log failed. -/
  | log (cause : LogError)
  /-- The address cannot be used. -/
  | bind (address cause : String)
  deriving DecidableEq, Repr

namespace StartError

/-- The text that reports the failure. -/
def message : StartError → String
  | .log cause => cause.message
  | .bind address cause => "failed to bind " ++ address ++ ": " ++ cause

/-- The failure and what was behind it, outermost first. -/
def chain (e : StartError) : List String :=
  match e with
  | .log cause => e.message :: cause.cause?.toList
  | .bind _ cause => [e.message, cause]

/-- A text whose lines after the first are moved in. -/
def indent (margin : String) (text : String) : String :=
  String.ofList (text.toList.flatMap fun c => if c = '\n' then '\n' :: margin.toList else [c])

/-- One failure of a chain of several, with its number. -/
def numbered (position : Nat) (text : String) : String :=
  let number := toString position
  String.ofList (List.replicate (5 - number.length) ' ') ++ number ++ ": " ++ indent "       " text

/-- The full report, as the program prints it before it ends. -/
def report (e : StartError) : String :=
  let causes :=
    match e.chain with
    | [text] => ["    " ++ indent "    " text]
    | texts => texts.mapIdx numbered
  "Error: server stopped\n\nCaused by:\n" ++ String.intercalate "\n" causes ++ "\n"

end StartError

/-- All that a program with given settings tells of its end: first what is wrong with the filter of
its notices, which does not keep it from starting, and then the failure. -/
def Settings.failureReport (settings : Settings) (e : StartError) : String :=
  String.join ((Filter.complaints settings.logLevel).map (· ++ "\n")) ++ e.report

/-- A log on the device that opening its path has given. -/
def Settings.openLog (settings : Settings) (opened : Except SystemError Device) :
    Except LogError Log :=
  let path := Utf8.decodeLossy settings.logPath
  match opened with
  | .error cause => .error (.opening path cause)
  | .ok device => .ok { path, device, policy := settings.syncPolicy }

/-- An engine over the log that the settings name, and what there was to report. -/
def Engine.start (settings : Settings) (vocabulary : Vocabulary)
    (opened : Except SystemError Device) : Except LogError Engine × List Notice :=
  match settings.openLog opened with
  | .error e => (.error e, [])
  | .ok log => Engine.ofLog settings vocabulary log

/-- A service that awaits its first client, and what there was to report. -/
def Service.start (settings : Settings) (network : Network) (opened : Except SystemError Device) :
    Except StartError Service × List Notice :=
  match Engine.start settings .standard opened with
  | (.error e, notices) => (.error (.log e), notices)
  | (.ok engine, notices) =>
    match Address.parse settings.address with
    | .error e => (.error (.bind settings.address e.message), notices)
    | .ok address =>
      match network.bindFailure address with
      | some cause => (.error (.bind settings.address cause), notices)
      | none => (.ok { engine }, notices ++ [.listening settings.address])

end LogStore
