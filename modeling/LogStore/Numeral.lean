import LogStore.Bytes

/-!
# Decimal numerals

The lengths in a header and the integers of a reply are written in decimal. Writing gives the
shortest numeral. Reading takes any number of digits, leading zeros included, and gives the exact
value: whether a value is small enough is for the reader of the header to say. A count may carry
either sign, a length only `+`.
-/

namespace LogStore.Numeral

/-- The digit `0` to `9` of a number below ten. -/
def digit (n : Nat) : Byte :=
  48 + n.toUInt8

/-- The value of a decimal digit. -/
def digitValue? (b : Byte) : Option Nat :=
  if 48 ≤ b ∧ b ≤ 57 then some (b.toNat - 48) else none

/-- The shortest decimal numeral of a natural number. -/
def ofNat (n : Nat) : Bytes :=
  if n < 10 then [digit n] else ofNat (n / 10) ++ [digit (n % 10)]
termination_by n

/-- The shortest decimal numeral of an integer, with `-` before the negative ones. -/
def ofInt : Int → Bytes
  | .ofNat n => ofNat n
  | .negSucc n => Byte.minus :: ofNat (n + 1)

/-- Goes on reading digits after digits of value `value`. -/
def readDigits? (value : Nat) : Bytes → Option Nat
  | [] => some value
  | b :: rest =>
    match digitValue? b with
    | some d => readDigits? (10 * value + d) rest
    | none => none

/-- Reads one digit or more. -/
def readNat? : Bytes → Option Nat
  | [] => none
  | digits => readDigits? 0 digits

/-- Reads digits after an optional `+`. -/
def readUnsigned? : Bytes → Option Nat
  | [] => none
  | b :: rest => if b = Byte.plus then readNat? rest else readNat? (b :: rest)

/-- Reads digits after an optional `+` or `-`. -/
def readSigned? : Bytes → Option Int
  | [] => none
  | b :: rest =>
    if b = Byte.minus then (readNat? rest).map fun n => -(n : Int)
    else (readUnsigned? (b :: rest)).map Int.ofNat

/-! ## Reading what was written -/

theorem digitValue?_digit {n : Nat} (h : n < 10) : digitValue? (digit n) = some n := by
  match n, h with
  | 0, _ | 1, _ | 2, _ | 3, _ | 4, _ | 5, _ | 6, _ | 7, _ | 8, _ | 9, _ => rfl
  | n + 10, h => omega

/-- Every numeral has a first digit. -/
theorem ofNat_ne_nil (n : Nat) : ofNat n ≠ [] := by
  rw [ofNat]
  split <;> simp

end LogStore.Numeral
