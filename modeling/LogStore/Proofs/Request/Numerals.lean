import Mathlib.Data.Nat.Digits.Defs
import LogStore.Numeral

/-!
# Which numerals are read

A header gives its number in decimal: one digit or more, any number of leading zeros included, with
a `+` in front of a length and either sign in front of a count if the client likes. Here this is
said without the readers, with the value in base ten taken from the library, and the readers are
shown to accept these numerals and nothing else, with the exact value
(`Numeral.readUnsigned?_eq_some_iff`, `Numeral.readSigned?_eq_some_iff`).
-/

namespace LogStore.Numeral

/-- One of the bytes `0` to `9`. -/
def IsDigit (b : Byte) : Prop :=
  48 ≤ b ∧ b ≤ 57

/-- The value of digits in base ten, the first of them weighing most. -/
def valueOf (digits : Bytes) : Nat :=
  Nat.ofDigits 10 (digits.reverse.map fun b => b.toNat - 48)

/-- One digit or more, and their value. -/
structure Digits (digits : Bytes) (value : Nat) : Prop where
  ne_nil : digits ≠ []
  isDigit : ∀ b ∈ digits, IsDigit b
  valueOf_eq : valueOf digits = value

/-- A numeral that may have a `+` in front, and its value. -/
inductive Unsigned : Bytes → Nat → Prop
  | bare {digits : Bytes} {value : Nat} (h : Digits digits value) : Unsigned digits value
  | plus {digits : Bytes} {value : Nat} (h : Digits digits value) :
      Unsigned (Byte.plus :: digits) value

/-- A numeral that may have either sign in front, and its value. -/
inductive Signed : Bytes → Int → Prop
  | unsigned {numeral : Bytes} {value : Nat} (h : Unsigned numeral value) : Signed numeral value
  | minus {digits : Bytes} {value : Nat} (h : Digits digits value) :
      Signed (Byte.minus :: digits) (-value)

/-! ## Digits -/

theorem valueOf_cons (b : Byte) (digits : Bytes) :
    valueOf (b :: digits) = (b.toNat - 48) * 10 ^ digits.length + valueOf digits := by
  rw [valueOf, List.reverse_cons, List.map_append, Nat.ofDigits_append, List.length_map,
    List.length_reverse, List.map_cons, List.map_nil, Nat.ofDigits_singleton, ← valueOf]
  ring

theorem digitValue?_eq_some_iff {b : Byte} {d : Nat} :
    digitValue? b = some d ↔ IsDigit b ∧ b.toNat - 48 = d := by
  unfold digitValue?
  by_cases h : 48 ≤ b ∧ b ≤ 57
  · rw [if_pos h, Option.some.injEq]
    exact (and_iff_right h).symm
  · rw [if_neg h]
    constructor
    · intro hnone
      cases hnone
    · intro hdigit
      exact absurd hdigit.1 h

theorem readDigits?_eq_some_iff {value n : Nat} {digits : Bytes} :
    readDigits? value digits = some n ↔
      (∀ b ∈ digits, IsDigit b) ∧ value * 10 ^ digits.length + valueOf digits = n := by
  induction digits generalizing value with
  | nil =>
    rw [readDigits?, Option.some.injEq]
    constructor
    · rintro rfl
      exact ⟨nofun, by rw [List.length_nil, Nat.pow_zero, Nat.mul_one]; rfl⟩
    · rintro ⟨_, rfl⟩
      rw [List.length_nil, Nat.pow_zero, Nat.mul_one]
      rfl
  | cons b digits ih =>
    rw [readDigits?, List.forall_mem_cons, valueOf_cons, List.length_cons]
    cases hvalue : digitValue? b with
    | none =>
      refine iff_of_false nofun fun ⟨⟨hdigit, _⟩, _⟩ => ?_
      rw [digitValue?_eq_some_iff.2 ⟨hdigit, rfl⟩] at hvalue
      cases hvalue
    | some d =>
      obtain ⟨hdigit, rfl⟩ := digitValue?_eq_some_iff.1 hvalue
      -- What was read before moves up by one place.
      have hplace : (10 * value + (b.toNat - 48)) * 10 ^ digits.length + valueOf digits =
          value * 10 ^ (digits.length + 1) +
            ((b.toNat - 48) * 10 ^ digits.length + valueOf digits) := by
        ring
      dsimp only
      rw [ih, hplace, and_iff_right hdigit]

theorem readNat?_eq_some_iff {numeral : Bytes} {n : Nat} :
    readNat? numeral = some n ↔ Digits numeral n := by
  cases numeral with
  | nil => exact iff_of_false nofun fun h => h.ne_nil rfl
  | cons b digits =>
    have hread : readNat? (b :: digits) = readDigits? 0 (b :: digits) := rfl
    rw [hread, readDigits?_eq_some_iff, Nat.zero_mul, Nat.zero_add]
    constructor
    · rintro ⟨hdigits, hvalue⟩
      exact ⟨List.cons_ne_nil _ _, hdigits, hvalue⟩
    · intro h
      exact ⟨h.isDigit, h.valueOf_eq⟩

/-! ## Signs -/

theorem Digits.head_ne {digits : Bytes} {value : Nat} {b : Byte} (h : Digits (b :: digits) value) :
    b ≠ Byte.plus ∧ b ≠ Byte.minus := by
  have hdigit := h.isDigit b List.mem_cons_self
  constructor
  · rintro rfl
    exact absurd hdigit.1 (by decide)
  · rintro rfl
    exact absurd hdigit.1 (by decide)

theorem Unsigned.head_ne_minus {digits : Bytes} {value : Nat} {b : Byte}
    (h : Unsigned (b :: digits) value) : b ≠ Byte.minus := by
  cases h with
  | bare h => exact h.head_ne.2
  | plus h => decide

theorem readUnsigned?_eq_some_iff {numeral : Bytes} {n : Nat} :
    readUnsigned? numeral = some n ↔ Unsigned numeral n := by
  constructor
  · intro h
    unfold readUnsigned? at h
    split at h
    · cases h
    · split at h
      · rename_i hplus
        rw [hplus]
        exact .plus (readNat?_eq_some_iff.1 h)
      · exact .bare (readNat?_eq_some_iff.1 h)
  · intro h
    cases h with
    | plus h =>
      rw [readUnsigned?, if_pos rfl]
      exact readNat?_eq_some_iff.2 h
    | bare h =>
      cases numeral with
      | nil => exact absurd rfl h.ne_nil
      | cons b digits =>
        rw [readUnsigned?, if_neg h.head_ne.1]
        exact readNat?_eq_some_iff.2 h

/-- A count is read exactly where a numeral with either sign stands, as its exact value. -/
theorem readSigned?_eq_some_iff {numeral : Bytes} {value : Int} :
    readSigned? numeral = some value ↔ Signed numeral value := by
  constructor
  · intro h
    unfold readSigned? at h
    split at h
    · cases h
    · split at h
      · rename_i digits hminus
        rw [hminus]
        cases hread : readNat? digits with
        | none =>
          rw [hread] at h
          cases h
        | some n =>
          rw [hread] at h
          cases h
          exact .minus (readNat?_eq_some_iff.1 hread)
      · obtain ⟨n, hread, rfl⟩ := Option.map_eq_some_iff.1 h
        exact .unsigned (readUnsigned?_eq_some_iff.1 hread)
  · intro h
    cases h with
    | minus h =>
      rw [readSigned?, if_pos rfl, readNat?_eq_some_iff.2 h]
      rfl
    | @unsigned _ n h =>
      cases numeral with
      | nil =>
        cases h with
        | bare h => exact absurd rfl h.ne_nil
      | cons b digits =>
        rw [readSigned?, if_neg h.head_ne_minus, readUnsigned?_eq_some_iff.2 h]
        rfl

theorem Unsigned.unique {numeral : Bytes} {a b : Nat} (ha : Unsigned numeral a)
    (hb : Unsigned numeral b) : b = a := by
  have hread := readUnsigned?_eq_some_iff.2 ha
  rw [readUnsigned?_eq_some_iff.2 hb] at hread
  exact Option.some.inj hread

theorem Signed.unique {numeral : Bytes} {a b : Int} (ha : Signed numeral a)
    (hb : Signed numeral b) : b = a := by
  have hread := readSigned?_eq_some_iff.2 ha
  rw [readSigned?_eq_some_iff.2 hb] at hread
  exact Option.some.inj hread

/-! ## Bytes that stand in no numeral -/

theorem Digits.notMem {digits : Bytes} {value : Nat} (h : Digits digits value) {b : Byte}
    (hdigit : ¬ IsDigit b) : b ∉ digits := by
  intro hmem
  exact hdigit (h.isDigit b hmem)

theorem Unsigned.notMem {numeral : Bytes} {value : Nat} (h : Unsigned numeral value) {b : Byte}
    (hdigit : ¬ IsDigit b) (hplus : b ≠ Byte.plus) : b ∉ numeral := by
  cases h with
  | bare h => exact h.notMem hdigit
  | plus h =>
    intro hmem
    rcases List.mem_cons.1 hmem with heq | hmem
    · exact hplus heq
    · exact h.notMem hdigit hmem

theorem Signed.notMem {numeral : Bytes} {value : Int} (h : Signed numeral value) {b : Byte}
    (hdigit : ¬ IsDigit b) (hplus : b ≠ Byte.plus) (hminus : b ≠ Byte.minus) : b ∉ numeral := by
  cases h with
  | unsigned h => exact h.notMem hdigit hplus
  | minus h =>
    intro hmem
    rcases List.mem_cons.1 hmem with heq | hmem
    · exact hminus heq
    · exact h.notMem hdigit hmem

end LogStore.Numeral
