import LogStore.Proofs.Text.LineEnd
import LogStore.Vocabulary

/-!
# Registration

A vocabulary comes about by registrations, one after the other. A name stands for what it was last
registered for, the case of its ASCII letters aside, and a name that was never registered stands for
nothing (`Vocabulary.lookup_registerAll_eq_some_iff`, `Vocabulary.lookup_registerAll_eq_none_iff`).

Names are registered as text, but requests name commands by bytes. Folding ASCII letters keeps the
bytes of every other character apart, so bytes that fold to the form of a text are the form of a
text themselves (`Utf8.isText_of_toLower_eq`). So bytes that are not UTF-8 name nothing, whatever is
registered (`Vocabulary.isText_of_lookup`).
-/

namespace LogStore

/-! ## Folding bytes -/

namespace Byte

variable {b : Byte}

theorem toLower_of_le (h : 0x80 ≤ b.toNat) : b.toLower = b := by
  refine if_neg fun ⟨_, hle⟩ => ?_
  have hle : b.toNat ≤ 90 := UInt8.le_iff_toNat_le.1 hle
  omega

theorem toNat_toLower_lt (h : b.toNat < 0x80) : b.toLower.toNat < 0x80 := by
  unfold toLower
  split
  · rename_i hletter
    have hle : b.toNat ≤ 90 := UInt8.le_iff_toNat_le.1 hletter.2
    have hadd : (b + 32).toNat = (b.toNat + 32) % 256 := UInt8.toNat_add b 32
    omega
  · exact h

end Byte

theorem Bytes.toLower_of_le {bytes : Bytes} (h : ∀ b ∈ bytes, 0x80 ≤ b.toNat) :
    bytes.toLower = bytes :=
  (List.map_congr_left fun b hb => Byte.toLower_of_le (h b hb)).trans (List.map_id bytes)

/-! ## Folding text -/

namespace Utf8

/-- The bytes are the UTF-8 form of a text. -/
def IsText (bytes : Bytes) : Prop :=
  ∃ text, encode text = bytes

theorem isText_encode (text : String) : IsText (encode text) :=
  ⟨text, rfl⟩

/-- Bytes that fold like a character are a character. -/
theorem exists_utf8EncodeChar_of_toLower_eq {bytes : Bytes} {c : Char}
    (h : bytes.toLower = Bytes.toLower (String.utf8EncodeChar c)) :
    ∃ d, String.utf8EncodeChar d = bytes := by
  by_cases hc : c.toNat < 0x80
  · -- An ASCII character is one byte, and what folds like it is one byte as well.
    rw [utf8EncodeChar_of_ascii hc] at h
    obtain ⟨b, rfl, hb⟩ := List.map_eq_singleton_iff.1 h
    have hcode : (UInt8.ofNat c.toNat).toNat < 0x80 := by
      have hmod : (UInt8.ofNat c.toNat).toNat = c.toNat % 256 := by simp
      omega
    have hascii : b.toNat < 0x80 := by
      refine Nat.lt_of_not_le fun hle => ?_
      have hlower := Byte.toNat_toLower_lt hcode
      rw [← hb, Byte.toLower_of_le hle] at hlower
      omega
    have hwritten := written_ascii hascii
    rw [written, List.flatMap_singleton] at hwritten
    exact ⟨Char.ofNat b.toNat, hwritten⟩
  · -- No byte of another character changes, neither in the character nor in what folds like it.
    have hbeyond : ∀ b ∈ String.utf8EncodeChar c, 0x80 ≤ b.toNat := fun b hb =>
      le_of_mem_utf8EncodeChar (Nat.not_lt.1 hc) hb
    rw [Bytes.toLower_of_le hbeyond] at h
    have hfixed : bytes.toLower = bytes := by
      refine Bytes.toLower_of_le fun b hb => Nat.le_of_not_lt fun hlt => ?_
      have hlower := hbeyond b.toLower (h ▸ List.mem_map_of_mem hb)
      have hascii := Byte.toNat_toLower_lt hlt
      omega
    exact ⟨c, h.symm.trans hfixed⟩

theorem exists_flatMap_of_toLower_eq {chars : List Char} {bytes : Bytes}
    (h : bytes.toLower = Bytes.toLower (chars.flatMap String.utf8EncodeChar)) :
    ∃ others : List Char, others.flatMap String.utf8EncodeChar = bytes := by
  induction chars generalizing bytes with
  | nil => exact ⟨[], (List.map_eq_nil_iff.1 h).symm⟩
  | cons c chars ih =>
    rw [List.flatMap_cons, Bytes.toLower_append] at h
    obtain ⟨first, rest, rfl, hfirst, hrest⟩ := List.map_eq_append_iff.1 h
    obtain ⟨d, rfl⟩ := exists_utf8EncodeChar_of_toLower_eq hfirst
    obtain ⟨others, rfl⟩ := ih hrest
    exact ⟨d :: others, List.flatMap_cons⟩

theorem isText_of_toLower_eq {bytes other : Bytes} (h : bytes.toLower = other.toLower)
    (hother : IsText other) : IsText bytes := by
  obtain ⟨text, rfl⟩ := hother
  obtain ⟨chars, hchars⟩ := exists_flatMap_of_toLower_eq h
  exact ⟨String.ofList chars, by rw [encode, String.toList_ofList, hchars]⟩

end Utf8

namespace Vocabulary

/-! ## What a name stands for -/

variable {vocabulary : Vocabulary} {registrations : List Entry} {name : Bytes} {entry : Entry}

theorem find?_cons_of_key_eq (h : entry.key = name.toLower) (rest : List Entry) :
    (entry :: rest).find? (·.key == name.toLower) = some entry :=
  List.find?_cons_of_pos (p := fun entry : Entry => entry.key == name.toLower) (beq_iff_eq.2 h)

theorem find?_cons_of_key_ne (h : entry.key ≠ name.toLower) (rest : List Entry) :
    (entry :: rest).find? (·.key == name.toLower) = rest.find? (·.key == name.toLower) :=
  List.find?_cons_of_neg (p := fun entry : Entry => entry.key == name.toLower)
    (mt beq_iff_eq.1 h)

/-- The entries of one name make no difference to another name. -/
theorem find?_filter_of_key_ne (h : entry.key ≠ name.toLower) (entries : List Entry) :
    (entries.filter (·.key != entry.key)).find? (·.key == name.toLower) =
      entries.find? (·.key == name.toLower) := by
  rw [List.find?_filter]
  congr 1
  funext other
  by_cases hother : other.key = name.toLower
  · simp [hother, h.symm]
  · simp [hother]

/-- A registration takes the place of an earlier one of the same name, and leaves other names as
they are. -/
theorem lookup_register (vocabulary : Vocabulary) (entry : Entry) (name : Bytes) :
    (vocabulary.register entry.name entry.operation).lookup name =
      if entry.key = name.toLower then some entry else vocabulary.lookup name := by
  rw [lookup, register]
  by_cases hkey : entry.key = name.toLower
  · rw [if_pos hkey]
    exact find?_cons_of_key_eq hkey _
  · rw [if_neg hkey, find?_cons_of_key_ne hkey]
    exact find?_filter_of_key_ne hkey _

/-- Registers one after the other. -/
def registerAll (vocabulary : Vocabulary) (registrations : List Entry) : Vocabulary :=
  registrations.foldl (fun vocabulary entry => vocabulary.register entry.name entry.operation)
    vocabulary

/-- The last registration of a name counts, and without one what the name stood for before. -/
theorem lookup_registerAll (vocabulary : Vocabulary) (registrations : List Entry) (name : Bytes) :
    (vocabulary.registerAll registrations).lookup name =
      (registrations.reverse.find? (·.key == name.toLower)).or (vocabulary.lookup name) := by
  induction registrations generalizing vocabulary with
  | nil => rfl
  | cons entry registrations ih =>
    rw [registerAll, List.foldl_cons, ← registerAll, ih, lookup_register, List.reverse_cons,
      List.find?_append, Option.or_assoc]
    congr 1
    by_cases hkey : entry.key = name.toLower
    · rw [if_pos hkey, find?_cons_of_key_eq hkey, Option.some_or]
    · rw [if_neg hkey, find?_cons_of_key_ne hkey, List.find?_nil, Option.none_or]

/-- The entry is the last one that was registered under the name, case aside. -/
def IsLast (registrations : List Entry) (name : Bytes) (entry : Entry) : Prop :=
  ∃ before after, registrations = before ++ entry :: after ∧ entry.key = name.toLower ∧
    ∀ later ∈ after, later.key ≠ name.toLower

/-- The first one from the back is the last one. -/
theorem find?_reverse_eq_some_iff :
    registrations.reverse.find? (·.key == name.toLower) = some entry ↔
      IsLast registrations name entry := by
  rw [List.find?_eq_some_iff_append, beq_iff_eq]
  constructor
  · rintro ⟨hkey, after, before, hsplit, hafter⟩
    refine ⟨before.reverse, after.reverse, ?_, hkey, fun later hlater => ?_⟩
    · have hreverse := congrArg List.reverse hsplit
      rw [List.reverse_reverse, List.reverse_append, List.reverse_cons] at hreverse
      rw [hreverse, List.append_assoc]
      rfl
    · simpa using hafter later (List.mem_reverse.1 hlater)
  · rintro ⟨before, after, rfl, hkey, hafter⟩
    refine ⟨hkey, after.reverse, before.reverse, ?_, fun later hlater => ?_⟩
    · rw [List.reverse_append, List.reverse_cons, List.append_assoc]
      rfl
    · simpa using hafter later (List.mem_reverse.1 hlater)

theorem find?_reverse_eq_none_iff :
    registrations.reverse.find? (·.key == name.toLower) = none ↔
      ∀ entry ∈ registrations, entry.key ≠ name.toLower := by
  rw [List.find?_eq_none]
  simp only [List.mem_reverse, beq_iff_eq, ne_eq]

theorem lookup_registerAll_eq_some_iff :
    (empty.registerAll registrations).lookup name = some entry ↔
      IsLast registrations name entry := by
  have hnothing : empty.lookup name = none := rfl
  rw [lookup_registerAll, hnothing, Option.or_none]
  exact find?_reverse_eq_some_iff

theorem lookup_registerAll_eq_none_iff :
    (empty.registerAll registrations).lookup name = none ↔
      ∀ entry ∈ registrations, entry.key ≠ name.toLower := by
  have hnothing : empty.lookup name = none := rfl
  rw [lookup_registerAll, hnothing, Option.or_none]
  exact find?_reverse_eq_none_iff

theorem isText_of_lookup (h : vocabulary.lookup name = some entry) : Utf8.IsText name := by
  have hfound := List.find?_some h
  have hkey : entry.key = name.toLower := beq_iff_eq.1 hfound
  exact Utf8.isText_of_toLower_eq hkey.symm (Utf8.isText_encode entry.name)

end Vocabulary

end LogStore
