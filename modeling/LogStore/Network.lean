import LogStore.Address.Host
import LogStore.Log.Failure

/-!
# Networks

An address of good form can still be of no use: the name of its host may be unknown, and the number
may belong to another machine. A `Network` says what comes of awaiting clients at an address.
`Network.isolated` is that of a machine which is connected to no other: it knows no name but its
own, and has no numbers but those that every machine has for itself.
-/

namespace LogStore

/-- What a machine makes of addresses. -/
structure Network where
  /-- The report of the failure to await clients at an address, if it fails. -/
  bindFailure : Address → Option String

namespace Network

/-- The report of the failure to find a name. One that no machine may have is not looked for. -/
def lookupFailure (name : String) : String :=
  if name.toList.contains '\x00' then "file name contained an unexpected NUL byte"
  else
    "failed to lookup address information: " ++
      if Host.isName name then "Temporary failure in name resolution"
      else "Name or service not known"

/-- The failure to use a short number that is not the machine's own. A machine has the numbers that
lead back to it, the one that stands for all it has, those of groups and the one for everybody. -/
def shortFailure (number : Nat) : Option SystemError :=
  let first := number / 0x1000000
  if first = 127 ∨ number = 0 ∨ (224 ≤ first ∧ first ≤ 239) ∨ number = 0xFFFFFFFF then none
  else some .addressUnavailable

/-- The failure to use a long number that is not the machine's own. A short number may be given as a
long one. Those of groups and those that hold in one place only are not for services. -/
def longFailure : List Nat → Option SystemError
  | [0, 0, 0, 0, 0, 0xFFFF, high, low] => shortFailure (0x10000 * high + low)
  | [0, 0, 0, 0, 0, 0, 0, last] => if last ≤ 1 then none else some .addressUnavailable
  | first :: _ =>
    if 0xFF00 ≤ first ∨ (0xFE80 ≤ first ∧ first ≤ 0xFEBF) then some .invalidArgument
    else some .addressUnavailable
  | [] => some .invalidArgument

/-- The network of a machine on its own. -/
def isolated : Network where
  bindFailure address :=
    match Host.ofText address.host with
    | .short number => (shortFailure number).map SystemError.message
    | .long groups => (longFailure groups).map SystemError.message
    | .name name =>
      if name.toList.map Char.toLower = "localhost".toList then none else some (lookupFailure name)

end Network

end LogStore
