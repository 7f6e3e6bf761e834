import LogStore.Notice
import LogStore.Numeral
import LogStore.Text.Alphanumeric

/-!
# Filters

The person who runs the service chooses by a filter which notices to see. A filter is a text of
directives with commas between them:

    info
    store=debug
    store[write]=trace

A directive that is a verbosity alone, given by its word or its number, is for all notices, and the
last of these counts. Any other names a part of the program, in brackets perhaps a span of its work
with fields in braces, and behind an equals sign the verbosity for it; no notice is about such a
part. A directive that is not understood is left out, and the person is told. Where no directive is
left, errors are shown.
-/

namespace LogStore

/-- How much is shown. -/
inductive Verbosity where
  | off
  | error
  | warn
  | info
  | debug
  | trace
  deriving DecidableEq, Repr

namespace Verbosity

/-- The verbosities from the least to the greatest, so that the place of each is its number. -/
def all : List Verbosity :=
  [.off, .error, .warn, .info, .debug, .trace]

/-- The word for a verbosity. -/
def word : Verbosity → String
  | .off => "off"
  | .error => "error"
  | .warn => "warn"
  | .info => "info"
  | .debug => "debug"
  | .trace => "trace"

/-- The verbosity that a text stands for: a number, with or without `+`, or a word in any case. -/
def ofText? (text : String) : Option Verbosity :=
  match Numeral.readUnsigned? (Utf8.encode text) with
  | some number => all[number]?
  | none => all.find? (·.word.toList == text.toList.map Char.toLower)

/-- Whether notices of a level are shown. -/
def shows : Verbosity → Level → Bool
  | .off, _ => false
  | .error, level => level == .error
  | .warn, level => level != .info
  | .info, _ | .debug, _ | .trace, _ => true

end Verbosity

/-- What is wrong with a directive. -/
inductive DirectiveError where
  /-- It does not have the form of a directive. -/
  | malformed
  /-- What stands behind the equals sign is no verbosity. -/
  | unknownVerbosity
  deriving DecidableEq, Repr

/-- The text that reports the error. -/
def DirectiveError.message : DirectiveError → String
  | .malformed => "invalid filter directive"
  | .unknownVerbosity =>
    "error parsing level filter: expected one of " ++
      String.join (Verbosity.all.map fun verbosity => "\"" ++ verbosity.word ++ "\", ") ++
      "or a number 0-5"

/-- What a directive is for. -/
inductive Directive where
  /-- For all notices. -/
  | general (verbosity : Verbosity)
  /-- For a part of the program. -/
  | particular
  deriving DecidableEq, Repr

namespace Directive

/-- The characters that may stand around a directive. -/
def isSpace (c : Char) : Bool :=
  c == ' ' || ('\t' ≤ c && c ≤ '\r') || c == '\u0085' || c == '\u00a0' || c == '\u1680' ||
    ('\u2000' ≤ c && c ≤ '\u200a') || c == '\u2028' || c == '\u2029' || c == '\u202f' ||
    c == '\u205f' || c == '\u3000'

/-- The characters that a name may begin with. -/
def beginsName (c : Char) : Bool :=
  c == '-' || c == ':' || c == '_' || Alphanumeric.contains c

/-- Where the reader of a directive stands. -/
inductive Place where
  /-- At the beginning. -/
  | start
  /-- In the name of a part of the program. -/
  | name
  /-- In the name of a span. -/
  | span
  /-- In a field, which needs at least one character. -/
  | field (isEmpty : Bool)
  /-- Behind the fields. -/
  | fields
  /-- Behind the bracket that closes a span. -/
  | closed
  deriving DecidableEq, Repr

/-- The place behind a character, or `none` behind the equals sign before the verbosity. -/
def Place.step (place : Place) (c : Char) : Except DirectiveError (Option Place) :=
  match place with
  | .start =>
    if c = '[' then .ok (some .span)
    else if beginsName c then .ok (some .name)
    else .error .malformed
  | .name =>
    if c = '=' then .ok none else if c = '[' then .ok (some .span) else .ok (some .name)
  | .span =>
    if c = ']' then .ok (some .closed)
    else if c = '\x7b' then .ok (some (.field true))
    else .ok (some .span)
  | .field isEmpty =>
    if c ≠ '\x7d' then .ok (some (.field false))
    else if isEmpty then .error .malformed
    else .ok (some .fields)
  | .fields => if c = ']' then .ok (some .closed) else .error .malformed
  | .closed => if c = '=' then .ok none else .error .malformed

/-- The directive with a given verbosity for a part of the program. Nothing said means all. -/
def ofVerbosity (text : String) : Except DirectiveError Directive :=
  if text = "" ∨ (Verbosity.ofText? text).isSome then .ok .particular
  else .error .unknownVerbosity

/-- The directive that a text stands for when its reader has come to its end. -/
def atEnd (text : String) : Place → Except DirectiveError Directive
  | .name => .ok ((Verbosity.ofText? text).elim .particular .general)
  | .closed => .ok .particular
  | .start | .span | .field _ | .fields => .error .malformed

/-- Reads on. `read` is the number of bytes that were read, of the text without the space around it,
and the verbosity is what stands behind as many of the whole text: so a text with space before it
has none. -/
def readFrom (text : String) (place : Place) (read : Nat) :
    List Char → Except DirectiveError Directive
  | [] => atEnd text place
  | c :: rest =>
    match place.step c with
    | .error e => .error e
    | .ok (some place) => readFrom text place (read + c.utf8Size) rest
    | .ok none => ofVerbosity (Utf8.decodeLossy ((Utf8.encode text).drop (read + c.utf8Size)))

/-- The directive that a text stands for. -/
def ofText (text : String) : Except DirectiveError Directive :=
  let trimmed := ((text.toList.dropWhile isSpace).reverse.dropWhile isSpace).reverse
  readFrom text .start 0 trimmed

end Directive

namespace Filter

/-- The texts of the directives. -/
def texts (filter : String) : List String :=
  ((filter.toList.splitOn ',').filter (· != [])).map String.ofList

/-- What the person is told about the directives that are not understood. -/
def complaints (filter : String) : List String :=
  (texts filter).filterMap fun text =>
    match Directive.ofText text with
    | .ok _ => none
    | .error e => some ("ignoring `" ++ text ++ "`: " ++ e.message)

/-- How much a filter shows of all notices. -/
def verbosity (filter : String) : Verbosity :=
  match (texts filter).filterMap fun text => (Directive.ofText text).toOption with
  | [] => .error
  | directives =>
    directives.foldl
      (fun verbosity directive =>
        match directive with
        | .general chosen => chosen
        | .particular => verbosity)
      .off

/-- Whether a filter shows a notice. -/
def shows (filter : String) (notice : Notice) : Bool :=
  (verbosity filter).shows notice.level

end Filter

example : Filter.verbosity "debug,store=trace,WARN" = .warn ∧ Filter.verbosity "store=info" = .off ∧
    Filter.verbosity "store[" = .error := by
  decide +kernel

example : Filter.complaints "store[write\x7bkey\x7d]=+5,[\x7b\x7d], store=info" =
    ["ignoring `[\x7b\x7d]`: " ++ DirectiveError.malformed.message,
      "ignoring ` store=info`: " ++ DirectiveError.unknownVerbosity.message] := by
  decide +kernel

end LogStore
