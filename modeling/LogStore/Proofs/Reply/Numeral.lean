import LogStore.Numeral

/-!
# Numerals are read back

A numeral that was written is read back as the number it was written for, and it holds digits only,
behind a sign at most. So it cannot be taken for the end of its line.
-/

namespace LogStore.Numeral

theorem readDigits?_append (value : Nat) (a b : Bytes) :
    readDigits? value (a ++ b) = (readDigits? value a).bind (readDigits? · b) := by
  induction a generalizing value with
  | nil => rfl
  | cons digit a ih =>
    rw [List.cons_append, readDigits?, readDigits?]
    cases digitValue? digit with
    | none => rfl
    | some d => exact ih (10 * value + d)

theorem readDigits?_ofNat (n : Nat) : readDigits? 0 (ofNat n) = some n := by
  fun_induction ofNat n with
  | case1 n hsmall =>
    rw [readDigits?, digitValue?_digit hsmall]
    simp [readDigits?]
  | case2 n _ ih =>
    have hlast : n % 10 < 10 := Nat.mod_lt n (by decide)
    rw [readDigits?_append, ih]
    simp only [Option.bind_some, readDigits?, digitValue?_digit hlast, Nat.div_add_mod]

theorem exists_digit_of_mem_ofNat {n : Nat} {b : Byte} (h : b ∈ ofNat n) :
    ∃ d < 10, b = digit d := by
  fun_induction ofNat n with
  | case1 n hsmall => exact ⟨n, hsmall, List.mem_singleton.1 h⟩
  | case2 n _ ih =>
    rcases List.mem_append.1 h with h | h
    · exact ih h
    · exact ⟨n % 10, Nat.mod_lt n (by decide), List.mem_singleton.1 h⟩

/-- A byte that is no digit stands in no numeral of a natural number. -/
theorem notMem_ofNat {b : Byte} (h : digitValue? b = none) (n : Nat) : b ∉ ofNat n := by
  intro hmem
  obtain ⟨d, hd, rfl⟩ := exists_digit_of_mem_ofNat hmem
  rw [digitValue?_digit hd] at h
  cases h

/-- A numeral of a natural number is its digits, without a sign. -/
theorem exists_ofNat_eq_cons (n : Nat) :
    ∃ b rest, ofNat n = b :: rest ∧ b ≠ Byte.minus ∧ b ≠ Byte.plus ∧
      readNat? (b :: rest) = some n := by
  have hread := readDigits?_ofNat n
  have hminus : Byte.minus ∉ ofNat n := notMem_ofNat (by decide) n
  have hplus : Byte.plus ∉ ofNat n := notMem_ofNat (by decide) n
  cases hdigits : ofNat n with
  | nil => exact absurd hdigits (ofNat_ne_nil n)
  | cons b rest =>
    rw [hdigits] at hread hminus hplus
    refine ⟨b, rest, rfl, fun h => hminus (h ▸ List.mem_cons_self),
      fun h => hplus (h ▸ List.mem_cons_self), ?_⟩
    rw [readNat?, hread]
    exact nofun

theorem readUnsigned?_ofNat (n : Nat) : readUnsigned? (ofNat n) = some n := by
  obtain ⟨b, rest, hdigits, _, hplus, hread⟩ := exists_ofNat_eq_cons n
  rw [hdigits, readUnsigned?, if_neg hplus, hread]

theorem readSigned?_ofNat (n : Nat) : readSigned? (ofNat n) = some n := by
  obtain ⟨b, rest, hdigits, hminus, hplus, hread⟩ := exists_ofNat_eq_cons n
  rw [hdigits, readSigned?, if_neg hminus, readUnsigned?, if_neg hplus, hread]
  rfl

theorem readSigned?_ofInt (value : Int) : readSigned? (ofInt value) = some value := by
  cases value with
  | ofNat n => exact readSigned?_ofNat n
  | negSucc n =>
    have hread : readNat? (ofNat (n + 1)) = some (n + 1) := by
      rw [readNat?, readDigits?_ofNat]
      exact fun h => ofNat_ne_nil _ h
    rw [ofInt, readSigned?, if_pos rfl, hread]
    rfl

theorem carriageReturn_notMem_ofNat (n : Nat) : Byte.carriageReturn ∉ ofNat n :=
  notMem_ofNat (by decide) n

theorem carriageReturn_notMem_ofInt (value : Int) : Byte.carriageReturn ∉ ofInt value := by
  cases value with
  | ofNat n => exact carriageReturn_notMem_ofNat n
  | negSucc n =>
    intro h
    rcases List.mem_cons.1 h with h | h
    · exact absurd h (by decide)
    · exact carriageReturn_notMem_ofNat (n + 1) h

end LogStore.Numeral
