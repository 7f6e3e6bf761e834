import LogStore.Numeral
import LogStore.Text.Utf8

/-!
# Addresses

The address at which clients are awaited is a host and a port, separated by the last colon. Whether
the host exists is for the network to say; here only the form is judged.
-/

namespace LogStore

/-- What is wrong with the form of an address. -/
inductive AddressError where
  /-- There is no port. -/
  | missingPort
  /-- The port is not a number, or too large for one. -/
  | invalidPort
  deriving DecidableEq, Repr

/-- The text that reports the error. -/
def AddressError.message : AddressError → String
  | .missingPort => "invalid socket address"
  | .invalidPort => "invalid port value"

/-- A host and a port. -/
structure Address where
  /-- The host, as it was written. -/
  host : String
  /-- The port. -/
  port : Nat
  deriving DecidableEq, Repr

namespace Address

/-- The largest port. -/
def maxPort : Nat := 65535

/-- The port that a text stands for: a numeral, with or without `+`, of a value within the limit. -/
def readPort? (text : String) : Option Nat :=
  (Numeral.readUnsigned? (Utf8.encode text)).filter (· ≤ maxPort)

/-- The text before the last colon and the text behind it. -/
def splitAtPort? (text : String) : Option (String × String) :=
  let reversed := text.toList.reverse
  match reversed.dropWhile (· != ':') with
  | [] => none
  | _ :: host =>
    some (String.ofList host.reverse, String.ofList (reversed.takeWhile (· != ':')).reverse)

/-- The address that a text stands for. -/
def parse (text : String) : Except AddressError Address :=
  match splitAtPort? text with
  | none => .error .missingPort
  | some (host, port) =>
    match readPort? port with
    | none => .error .invalidPort
    | some port => .ok ⟨host, port⟩

end Address

end LogStore
