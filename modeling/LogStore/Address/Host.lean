import LogStore.Address

/-!
# Hosts

The host of an address is a number or a name. A short number has 32 bits and is written as one to
four numerals with dots between them: each of the first stands for a byte and the last for all that
is left. A long number has eight groups of 16 bits, written in hexadecimal with colons between them.
Two colons together stand for as many groups of zero as are missing, and the last two groups may be
written like a short number. Everything else is a name, but not every text is one that a machine may
have.
-/

namespace LogStore

/-- What a host is. -/
inductive Host where
  /-- A number of 32 bits. -/
  | short (number : Nat)
  /-- Eight groups of 16 bits. -/
  | long (groups : List Nat)
  /-- A name. -/
  | name (text : String)
  deriving DecidableEq, Repr

namespace Host

/-- The value of a digit in a base up to sixteen. -/
def digitValue? (base : Nat) (c : Char) : Option Nat :=
  let value :=
    if '0' ≤ c ∧ c ≤ '9' then c.toNat - '0'.toNat
    else if 'a' ≤ c.toLower ∧ c.toLower ≤ 'f' then c.toLower.toNat - 'a'.toNat + 10
    else base
  if value < base then some value else none

/-- The value of digits in a base; there must be one at least. -/
def digitsValue? (base : Nat) (digits : List Char) : Option Nat :=
  if digits = [] then none
  else digits.foldlM (fun value c => (digitValue? base c).map (base * value + ·)) 0

/-! ## Short numbers -/

/-- One number of a short number: hexadecimal behind `0x`, octal behind `0`, else decimal. -/
def readNumber? : List Char → Option Nat
  | '0' :: x :: digits =>
    if x.toLower = 'x' then digitsValue? 16 digits else digitsValue? 8 (x :: digits)
  | digits => digitsValue? 10 digits

/-- Joins the numbers of a short number; `left` is the number of bytes that are left. -/
def joinNumbers? : Nat → List Nat → Option Nat
  | 0, _ | _, [] => none
  | left, [last] => if last < 256 ^ left then some last else none
  | left + 1, first :: rest =>
    if first < 256 then (joinNumbers? left rest).map (first * 256 ^ left + ·) else none

/-- The short number that a text stands for. -/
def readShort? (text : List Char) : Option Nat := do
  joinNumbers? 4 (← (text.splitOn '.').mapM readNumber?)

/-! ## Long numbers -/

/-- The text before the first two colons that stand together, and the text behind them. -/
def splitAtGap? : List Char → Option (List Char × List Char)
  | [] => none
  | ':' :: ':' :: rest => some ([], rest)
  | c :: rest => (splitAtGap? rest).map fun (before, behind) => (c :: before, behind)

/-- The groups that a part of a long number stands for. Four bytes in decimal count as two. -/
def readPart? (part : List Char) : Option (List Nat) := do
  let bytes := part.splitOn '.'
  if bytes.length = 4 then
    if bytes.any fun byte => byte.head? == some '0' && byte != ['0'] then none
    else
      let number ← joinNumbers? 4 (← bytes.mapM (digitsValue? 10))
      return [number / 0x10000, number % 0x10000]
  else if part.length ≤ 4 then return [← digitsValue? 16 part]
  else none

/-- The groups of a text, which may have none. -/
def readGroups? (text : List Char) : Option (List Nat) := do
  if text = [] then return []
  else return (← (text.splitOn ':').mapM readPart?).flatten

/-- The groups of a long number. -/
def readLong? (text : List Char) : Option (List Nat) := do
  match splitAtGap? text with
  | none =>
    let groups ← readGroups? text
    if groups.length = 8 then some groups else none
  | some (before, behind) =>
    let first ← readGroups? before
    let last ← readGroups? behind
    if first.length + last.length < 8 then
      some (first ++ List.replicate (8 - (first.length + last.length)) 0 ++ last)
    else none

/-- A text without the brackets around it. -/
def unbracketed? (text : List Char) : Option (List Char) :=
  if text.head? = some '[' ∧ text.getLast? = some ']' then some text.tail.dropLast else none

/-! ## Names -/

/-- The characters of a name. -/
def isNameCharacter (c : Char) : Bool :=
  c.isAlphanum || c == '-' || c == '_' || c == '.'

/-- Whether a machine may have the name: it has parts of 1 to 63 characters with dots between them,
253 in all, and does not begin with a dash. A dot may follow it. -/
def isName (text : String) : Bool :=
  let name := text.toList
  let trimmed := if name.getLast? = some '.' then name.dropLast else name
  name.all isNameCharacter && name.head? != some '-' && trimmed.length ≤ 253 &&
    (trimmed.splitOn '.').all fun part => part != [] && part.length ≤ 63

/-- The host that a text stands for. -/
def ofText (text : String) : Host :=
  let characters := text.toList
  match readShort? characters, readLong? ((unbracketed? characters).getD characters) with
  | some number, _ => .short number
  | none, some groups => .long groups
  | none, none => .name text

example : ofText "127.1" = .short 0x7F000001 ∧ ofText "0X7f.0.0.01" = .short 0x7F000001 ∧
    ofText "256.0.0.1" = .name "256.0.0.1" ∧ ofText "" = .name "" := by
  decide +kernel

example : ofText "[::1]" = .long [0, 0, 0, 0, 0, 0, 0, 1] ∧
    ofText "1:2::ffff:1.2.3.4" = .long [1, 2, 0, 0, 0, 0xFFFF, 0x102, 0x304] ∧
    ofText "1::2::3" = .name "1::2::3" ∧ ofText ":1" = .name ":1" := by
  decide +kernel

end Host

end LogStore
