import LogStore.Settings
import LogStore.Text.Control

/-!
# The command line

The settings are given as options with a value, either in the next argument or behind an equals
sign: `--addr a` or `--addr=a`. `-h`, `--help`, `-V` and `--version` ask for a text instead.

Arguments are read from left to right. A value in an argument of its own stays `pending`: it is
judged when the next known option turns up, or at the end. An argument that is not understood stops
the reading at once, before a pending value is judged; a request for a text stops it after that. A
value behind an equals sign is judged where it stands.
-/

namespace LogStore

/-- What an option chooses. -/
inductive Setting where
  | address
  | logPath
  | syncPolicy
  | logLevel
  deriving DecidableEq, Repr

namespace Setting

/-- The name of the option, without the dashes. -/
def option : Setting → String
  | .address => "addr"
  | .logPath => "appendfilename"
  | .syncPolicy => "appendfsync"
  | .logLevel => "log-level"

/-- The word that stands for the value in a message. -/
def placeholder : Setting → String
  | .address => "ADDR"
  | .logPath => "APPENDFILENAME"
  | .syncPolicy => "APPENDFSYNC"
  | .logLevel => "LOG_LEVEL"

/-- The option with its value, as a message shows it. -/
def usage (setting : Setting) : String :=
  "--" ++ setting.option ++ " <" ++ setting.placeholder ++ ">"

/-- All settings. -/
def all : List Setting :=
  [.address, .logPath, .syncPolicy, .logLevel]

end Setting

/-- A text that can be asked for. -/
inductive Question where
  | help
  | version
  deriving DecidableEq, Repr

/-- The name of the option that asks for the text, without the dashes. -/
def Question.option : Question → String
  | .help => "help"
  | .version => "version"

/-- The first line of the text. -/
def Question.answer : Question → String
  | .help => "In-memory key-value server with an append-only file"
  | .version => "redis-aof 0.1.0"

/-- What is wrong with a command line. -/
inductive UsageError where
  /-- An argument is not understood. -/
  | unexpectedArgument (argument : String)
  /-- A value is given to an option that takes none. -/
  | unexpectedValue (question : Question) (value : String)
  /-- An option lacks its value, or has an empty one where that is no value. -/
  | missingValue (setting : Setting)
  /-- The value is none of those that the option knows. -/
  | invalidValue (setting : Setting) (value : String)
  /-- An option is given twice. -/
  | repeated (setting : Setting)
  /-- A value that must be text is not. -/
  | notText
  deriving DecidableEq, Repr

/-- The beginning of the text that reports the error. It ends with the first line end, which may be
one that the command line has brought in. -/
def UsageError.message : UsageError → String
  | .unexpectedArgument argument =>
    "error: unexpected argument '" ++ Control.strip argument ++ "' found"
  | .unexpectedValue question value =>
    "error: unexpected value '" ++ Control.strip value ++ "' for '--" ++ question.option ++
      "' found; no more were expected"
  | .missingValue setting =>
    "error: a value is required for '" ++ setting.usage ++ "' but none was supplied"
  | .invalidValue setting value =>
    "error: invalid value '" ++ Control.strip value ++ "' for '" ++ setting.usage ++ "'"
  | .repeated setting =>
    "error: the argument '" ++ setting.usage ++ "' cannot be used multiple times"
  | .notText => "error: invalid UTF-8 was detected in one or more arguments"

/-- What a command line asks for. -/
inductive CommandLine.Intent where
  /-- To start the service. -/
  | run (settings : Settings)
  /-- To print a text. -/
  | ask (question : Question)
  deriving DecidableEq, Repr

namespace CommandLine

/-- How an argument is understood, apart from what stands before it. -/
inductive Shape where
  /-- A known option with a value to come or, behind an equals sign, its value. -/
  | setting (setting : Setting) (value : Option Bytes)
  /-- A request for a text. -/
  | question (question : Question)
  /-- A request for a text with a value that does not belong there. -/
  | questionWith (question : Question) (value : Bytes)
  /-- An option that is not known, as a message names it. -/
  | unknown (name : String)
  /-- The two dashes behind which there are no options. -/
  | separator
  /-- Anything else, which may be the value of an option. -/
  | plain
  deriving DecidableEq, Repr

/-- The byte between the name of an option and its value. -/
def equalsSign : Byte := 61

/-- How an argument that begins with two dashes is understood, by the bytes behind them. -/
def longShape (body : Bytes) : Shape :=
  let name := body.takeWhile (· != equalsSign)
  let value :=
    match body.dropWhile (· != equalsSign) with
    | [] => none
    | _ :: value => some value
  match Setting.all.find? (Utf8.encode ·.option == name) with
  | some setting => .setting setting value
  | none =>
    match [Question.help, .version].find? (Utf8.encode ·.option == name), value with
    | some question, none => .question question
    | some question, some value => .questionWith question value
    | none, _ => .unknown ("--" ++ Utf8.decodeLossy name)

/-- How an argument that begins with one dash is understood, by the bytes behind it. Letters may
stand together, so the first one decides. -/
def shortShape (body : Bytes) : Shape :=
  match Utf8.units body with
  | some 'h' :: _ => .question .help
  | some 'V' :: _ => .question .version
  | some c :: _ => .unknown ("-" ++ c.toString)
  | _ => .unknown ("-" ++ Utf8.decodeLossy body)

/-- How an argument is understood. A single dash is a plain argument. -/
def shape : Bytes → Shape
  | [] => .plain
  | [_] => .plain
  | a :: b :: rest =>
    if a ≠ Byte.minus then .plain
    else if b ≠ Byte.minus then shortShape (b :: rest)
    else if rest = [] then .separator
    else longShape rest

/-- Takes a value over into the settings, if it is one for the setting. -/
def choose (setting : Setting) (value : Bytes) (settings : Settings) : Except UsageError Settings :=
  match setting with
  | .address =>
    match Utf8.decode? value with
    | some address => .ok { settings with address }
    | none => .error .notText
  | .logPath =>
    if value = [] then .error (.missingValue setting) else .ok { settings with logPath := value }
  | .syncPolicy =>
    if value = [] then .error (.missingValue setting)
    else
      match SyncPolicy.ofWord? value with
      | some syncPolicy => .ok { settings with syncPolicy }
      | none => .error (.invalidValue setting (Utf8.decodeLossy value))
  | .logLevel =>
    match Utf8.decode? value with
    | some logLevel => .ok { settings with logLevel }
    | none => .error .notText

/-- What has been read of a command line. -/
structure Progress where
  /-- The choices that were judged. -/
  settings : Settings := {}
  /-- The settings they belong to. -/
  chosen : List Setting := []
  /-- An option that was given last in an argument of its own, with its value if that has come. -/
  pending : Option (Setting × Option Bytes) := none

namespace Progress

/-- Judges a value and takes it over. -/
def accept (progress : Progress) (setting : Setting) (value : Bytes) :
    Except UsageError Progress := do
  if setting ∈ progress.chosen then throw (.repeated setting)
  let settings ← choose setting value progress.settings
  return { progress with settings, chosen := setting :: progress.chosen }

/-- Judges what is pending. -/
def resolve (progress : Progress) : Except UsageError Progress :=
  match progress.pending with
  | none => .ok progress
  | some (setting, none) => .error (.missingValue setting)
  | some (setting, some value) => { progress with pending := none }.accept setting value

/-- Reads an argument as a value or, where none is due, as one that does not belong there. -/
def plain (progress : Progress) (argument : Bytes) : Except UsageError Progress :=
  match progress.pending with
  | some (setting, none) => .ok { progress with pending := some (setting, some argument) }
  | _ => .error (.unexpectedArgument (Utf8.decodeLossy argument))

/-- Reads on. -/
def read (progress : Progress) : List Bytes → Except UsageError Intent
  | [] => do return .run (← progress.resolve).settings
  | argument :: rest =>
    match shape argument with
    | .plain => do read (← progress.plain argument) rest
    | .separator =>
      match rest with
      | [] => do return .run (← progress.resolve).settings
      | next :: _ => .error (.unexpectedArgument (Utf8.decodeLossy next))
    | .unknown name => .error (.unexpectedArgument name)
    | .questionWith question value =>
      .error (.unexpectedValue question (Utf8.decodeLossy value))
    | .question question => do
      let _ ← progress.resolve
      return .ask question
    | .setting setting none => do
      let progress ← progress.resolve
      read { progress with pending := some (setting, none) } rest
    | .setting setting (some value) => do
      let progress ← progress.resolve
      read (← progress.accept setting value) rest

end Progress

/-- What the arguments of a program ask for. -/
def parse (arguments : List Bytes) : Except UsageError Intent :=
  ({} : Progress).read arguments

end CommandLine

end LogStore
