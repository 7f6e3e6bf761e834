import LogStore.Text.Hidden

/-!
# Quoted names

A name is shown between double quotes. A backslash goes before a quote and a backslash; the usual
letters stand for tab, line feed, carriage return and NUL; any other character that is not shown is
given by its code, in hexadecimal and in braces.
-/

namespace LogStore.Quoted

/-- One character as it stands between the quotes. -/
def escape (c : Char) : List Char :=
  match c with
  | '"' => ['\\', '"']
  | '\\' => ['\\', '\\']
  | '\t' => ['\\', 't']
  | '\n' => ['\\', 'n']
  | '\r' => ['\\', 'r']
  | '\x00' => ['\\', '0']
  | c =>
    if Hidden.contains c then ['\\', 'u', '\x7b'] ++ Nat.toDigits 16 c.toNat ++ ['\x7d'] else [c]

/-- The name between double quotes. -/
def encode (name : String) : String :=
  String.ofList ('"' :: name.toList.flatMap escape ++ ['"'])

end LogStore.Quoted
