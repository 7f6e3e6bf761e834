import LogStore.Proofs.Keyspace.Removal

/-!
# Changing a keyspace

A keyspace comes about by giving keys values and removing keys, in any order and any number of
times. What it holds in the end is said by the changes alone: a key has the value that it was last
given and that was not removed since (`Keyspace.LastSet`). One change is followed through the
entries (`Keyspace.get?_change`), any number of them by induction (`Keyspace.get?_changeAll_iff`).

The entries are a list in the order of the keys, and the order is that of the bytes as numbers, a key
before its own extensions (`Bytes.lt_iff_precedes`). So the list is the same for all changes that
come to the same values (`Keyspace.canonical_ofChanges`).
-/

namespace LogStore

/-! ## The order of keys -/

/-- Where two byte strings part, the first one ends or has the byte of smaller number. -/
inductive Bytes.Precedes : Bytes → Bytes → Prop
  /-- The second goes on where the first ends. -/
  | ends (common : Bytes) (y : Byte) (rest : Bytes) : Precedes common (common ++ y :: rest)
  /-- The first bytes that differ decide. -/
  | differs (common : Bytes) {x y : Byte} (left right : Bytes) (h : x.toNat < y.toNat) :
    Precedes (common ++ x :: left) (common ++ y :: right)

theorem Bytes.Precedes.cons {a b : Bytes} (x : Byte) (h : Precedes a b) :
    Precedes (x :: a) (x :: b) := by
  cases h with
  | ends _ y rest => exact .ends (x :: a) y rest
  | differs common left right hlt => exact .differs (x :: common) left right hlt

/-- The order of the entries is the lexicographic one, byte by byte. -/
theorem Bytes.lt_iff_precedes {a b : Bytes} : a < b ↔ Precedes a b := by
  constructor
  · intro h
    induction a generalizing b with
    | nil =>
      cases b with
      | nil => exact absurd h (List.lt_irrefl [])
      | cons y rest => exact .ends [] y rest
    | cons x a ih =>
      cases b with
      | nil => exact absurd h (List.not_lt_nil _)
      | cons y b =>
        rcases List.cons_lt_cons_iff.1 h with hlt | ⟨rfl, htail⟩
        · exact .differs [] a b (UInt8.lt_iff_toNat_lt.1 hlt)
        · exact (ih htail).cons x
  · intro h
    cases h with
    | ends _ y rest =>
      induction a with
      | nil => exact List.nil_lt_cons y rest
      | cons x a ih => exact List.cons_lt_cons_iff.2 (.inr ⟨rfl, ih⟩)
    | differs common left right hlt =>
      induction common with
      | nil => exact List.cons_lt_cons_iff.2 (.inl (UInt8.lt_iff_toNat_lt.2 hlt))
      | cons x common ih => exact List.cons_lt_cons_iff.2 (.inr ⟨rfl, ih⟩)

namespace Keyspace

/-- A change of one key. -/
inductive Change where
  /-- The key gets a value. -/
  | set (key value : Bytes)
  /-- The key is removed. -/
  | delete (key : Bytes)

namespace Change

/-- The key that is changed. -/
def key : Change → Bytes
  | .set key _ | .delete key => key

/-- The value that the key has afterwards. -/
def value? : Change → Option Bytes
  | .set _ value => some value
  | .delete _ => none

end Change

variable {keyspace : Keyspace} {key value : Bytes}

/-! ## One change -/

theorem Change.value?_eq_some_iff {change : Change} (h : change.key = key) :
    change.value? = some value ↔ change = .set key value := by
  subst h
  cases change with
  | set other given => simp [Change.key, Change.value?]
  | delete other => simp [Change.value?]

/-- Makes a change. -/
def change (keyspace : Keyspace) : Change → Keyspace
  | .set key value => keyspace.insert key value
  | .delete key => (keyspace.remove key).2

/-- A change touches its own key and no other. -/
theorem get?_change (keyspace : Keyspace) (change : Change) (key : Bytes) :
    (keyspace.change change).get? key =
      if key = change.key then change.value? else keyspace.get? key := by
  cases change with
  | set other value => exact get?_insert keyspace other value key
  | delete other => exact get?_erase keyspace other key

/-! ## Any number of changes -/

/-- The changes gave the key the value, and did not touch it any more. -/
def LastSet (changes : List Change) (key value : Bytes) : Prop :=
  ∃ before after, changes = before ++ .set key value :: after ∧
    ∀ later ∈ after, later.key ≠ key

theorem lastSet_cons {change : Change} {changes : List Change} :
    LastSet (change :: changes) key value ↔
      LastSet changes key value ∨
        change = .set key value ∧ ∀ later ∈ changes, later.key ≠ key := by
  constructor
  · rintro ⟨before, after, hsplit, hafter⟩
    cases before with
    | nil =>
      cases hsplit
      exact .inr ⟨rfl, hafter⟩
    | cons first before =>
      cases hsplit
      exact .inl ⟨before, after, rfl, hafter⟩
  · rintro (⟨before, after, rfl, hafter⟩ | ⟨rfl, hafter⟩)
    · exact ⟨change :: before, after, rfl, hafter⟩
    · exact ⟨[], changes, rfl, hafter⟩

theorem LastSet.mem_keys {changes : List Change} (h : LastSet changes key value) :
    key ∈ changes.map Change.key := by
  obtain ⟨before, after, rfl, -⟩ := h
  simp [Change.key]

/-- Makes changes in order. -/
def changeAll (keyspace : Keyspace) (changes : List Change) : Keyspace :=
  changes.foldl change keyspace

/-- A key has the value it was last given, or the one it had before if no change touched it. The
induction is on the changes, over a keyspace that changes on the way. -/
theorem get?_changeAll_iff (keyspace : Keyspace) (changes : List Change) :
    (keyspace.changeAll changes).get? key = some value ↔
      LastSet changes key value ∨
        (∀ later ∈ changes, later.key ≠ key) ∧ keyspace.get? key = some value := by
  induction changes generalizing keyspace with
  | nil => simp [changeAll, LastSet]
  | cons change changes ih =>
    have hrest := ih (keyspace.change change)
    rw [get?_change] at hrest
    rw [changeAll, List.foldl_cons, ← changeAll, hrest, lastSet_cons, List.forall_mem_cons]
    by_cases hkey : key = change.key
    · rw [if_pos hkey, Change.value?_eq_some_iff hkey.symm]
      have htouched : ¬ change.key ≠ key := fun hne => hne hkey.symm
      tauto
    · have hother : change ≠ .set key value := by
        rintro rfl
        exact hkey rfl
      rw [if_neg hkey]
      have huntouched : change.key ≠ key := fun heq => hkey heq.symm
      tauto

/-- The keyspace that changes of the empty one come to. -/
def ofChanges (changes : List Change) : Keyspace :=
  empty.changeAll changes

theorem get?_ofChanges_iff {changes : List Change} :
    (ofChanges changes).get? key = some value ↔ LastSet changes key value := by
  rw [ofChanges, get?_changeAll_iff]
  simp

theorem isEmpty_iff : keyspace.isEmpty = true ↔ ∀ key, keyspace.get? key = none := by
  rw [isEmpty, List.isEmpty_iff]
  constructor
  · intro hnil key
    rw [get?, hnil]
    rfl
  · intro hnone
    refine List.eq_nil_iff_forall_not_mem.2 fun entry hentry => ?_
    have hvalue := mem_entries_iff.1 hentry
    rw [hnone] at hvalue
    cases hvalue

/-- There are as many entries as distinct keys that were changed and have a value in the end. -/
theorem size_ofChanges (changes : List Change) :
    (ofChanges changes).size =
      ((changes.map Change.key).dedup.filter
        fun key => ((ofChanges changes).get? key).isSome).length := by
  have hperm : (ofChanges changes).keys.Perm
      ((changes.map Change.key).dedup.filter
        fun key => ((ofChanges changes).get? key).isSome) := by
    refine (List.perm_ext_iff_of_nodup (nodup_keys _)
      ((List.nodup_dedup _).filter _)).2 fun key => ?_
    rw [List.mem_filter, List.mem_dedup, ← isSome_get?_iff]
    constructor
    · intro hsome
      obtain ⟨value, hvalue⟩ := Option.isSome_iff_exists.1 hsome
      exact ⟨(get?_ofChanges_iff.1 hvalue).mem_keys, hsome⟩
    · exact fun h => h.2
  rw [← hperm.length_eq, keys, List.length_map, size]

/-- **What changes come to.** A keyspace lists each key that has a value once, with that value, in
the order of the bytes; what it answers is the value that was last given and not removed since; its
size is the number of these keys; and two keyspaces are equal as soon as their answers agree,
whatever changes they have come from. -/
theorem canonical_ofChanges (changes : List Change) :
    let keyspace := ofChanges changes
    keyspace.entries.Pairwise (fun a b => Bytes.Precedes a.1 b.1) ∧ keyspace.keys.Nodup ∧
      (∀ key value, (key, value) ∈ keyspace.entries ↔ LastSet changes key value) ∧
      (∀ key value, keyspace.get? key = some value ↔ LastSet changes key value) ∧
      (∀ key value, (keyspace.remove key).1 = some value ↔ LastSet changes key value) ∧
      keyspace.size = keyspace.entries.length ∧
      keyspace.size = ((changes.map Change.key).dedup.filter
        fun key => (keyspace.get? key).isSome).length ∧
      (keyspace.isEmpty = true ↔ keyspace.entries = []) ∧
      (keyspace.isEmpty = true ↔ ∀ key value, ¬ LastSet changes key value) ∧
      ∀ others, ofChanges others = keyspace ↔
        ∀ key, (ofChanges others).get? key = keyspace.get? key := by
  intro keyspace
  have hvalue : ∀ key value, keyspace.get? key = some value ↔ LastSet changes key value :=
    fun key value => get?_ofChanges_iff
  have hascending : keyspace.entries.Pairwise (fun a b => Bytes.Precedes a.1 b.1) :=
    keyspace.sorted.imp Bytes.lt_iff_precedes.1
  have hnothing : keyspace.isEmpty = true ↔ ∀ key value, ¬ LastSet changes key value := by
    rw [isEmpty_iff]
    simp only [Option.eq_none_iff_forall_ne_some, ne_eq, hvalue]
  refine ⟨hascending, nodup_keys keyspace, fun key value => ?_, hvalue, hvalue, rfl,
    size_ofChanges changes, List.isEmpty_iff, hnothing, fun others => ?_⟩
  · rw [mem_entries_iff, hvalue]
  · constructor
    · intro heq key
      rw [heq]
    · exact ext_get?

/-- A key before its extensions, and a byte above 127 behind one below. -/
example :
    (ofChanges [.set [200] [1], .set [97, 0] [2], .set [97] [3], .set [98] [4], .delete [98],
      .set [97, 0] [5], .delete [99]]).entries = [([97], [3]), ([97, 0], [5]), ([200], [1])] := by
  decide +kernel

end Keyspace

end LogStore
