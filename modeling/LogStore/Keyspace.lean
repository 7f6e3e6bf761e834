import LogStore.Bytes

/-!
# The keyspace

The keys of the store and their values, ordered by key. Keys are compared byte by byte, and a key
comes before its own extensions. The order is part of the type: entries are strictly ascending, so
there is exactly one keyspace with given values for given keys, whatever happened to get there
(`Keyspace.ext_get?`).
-/

namespace LogStore

/-- An ordered map from keys to values. -/
structure Keyspace where
  /-- The keys with their values. -/
  entries : List (Bytes × Bytes)
  /-- Each key is less than all keys behind it. -/
  sorted : entries.Pairwise (fun a b => a.1 < b.1) := by simp
  deriving DecidableEq

namespace Keyspace

/-- The keyspace without keys. -/
def empty : Keyspace where
  entries := []

instance : Inhabited Keyspace := ⟨empty⟩

/-- The value of a key. -/
def get? (keyspace : Keyspace) (key : Bytes) : Option Bytes :=
  keyspace.entries.lookup key

/-- The number of keys. -/
def size (keyspace : Keyspace) : Nat :=
  keyspace.entries.length

/-- Whether there are no keys. -/
def isEmpty (keyspace : Keyspace) : Bool :=
  keyspace.entries.isEmpty

/-- Puts an entry in its place in an ordered list, or in the place of the entry of its key. -/
def insertEntry (key value : Bytes) : List (Bytes × Bytes) → List (Bytes × Bytes)
  | [] => [(key, value)]
  | entry :: rest =>
    if key < entry.1 then (key, value) :: entry :: rest
    else if key = entry.1 then (key, value) :: rest
    else entry :: insertEntry key value rest

theorem mem_insertEntry {key value : Bytes} {entries : List (Bytes × Bytes)} {e : Bytes × Bytes}
    (h : e ∈ insertEntry key value entries) : e = (key, value) ∨ e ∈ entries := by
  induction entries with
  | nil => exact .inl (List.mem_singleton.1 h)
  | cons entry rest ih =>
    unfold insertEntry at h
    split at h
    · exact List.mem_cons.1 h
    · split at h
      · exact (List.mem_cons.1 h).imp_right (List.mem_cons_of_mem _)
      · rcases List.mem_cons.1 h with rfl | h
        · exact .inr List.mem_cons_self
        · exact (ih h).imp_right (List.mem_cons_of_mem _)

theorem sorted_insertEntry (key value : Bytes) {entries : List (Bytes × Bytes)}
    (h : entries.Pairwise (fun a b => a.1 < b.1)) :
    (insertEntry key value entries).Pairwise (fun a b => a.1 < b.1) := by
  induction entries with
  | nil => exact List.pairwise_singleton _ _
  | cons entry rest ih =>
    obtain ⟨hentry, hrest⟩ := List.pairwise_cons.1 h
    unfold insertEntry
    split
    · rename_i hlt
      refine List.pairwise_cons.2 ⟨fun e he => ?_, h⟩
      rcases List.mem_cons.1 he with rfl | he
      · exact hlt
      · exact List.lt_trans hlt (hentry e he)
    · split
      · rename_i heq
        exact List.pairwise_cons.2 ⟨fun e he => heq ▸ hentry e he, hrest⟩
      · rename_i hlt hne
        refine List.pairwise_cons.2 ⟨fun e he => ?_, ih hrest⟩
        rcases mem_insertEntry he with rfl | he
        · exact Std.lt_of_le_of_ne hlt (Ne.symm hne)
        · exact hentry e he

/-- Gives a key a value, in place of the one it had. -/
def insert (keyspace : Keyspace) (key value : Bytes) : Keyspace where
  entries := insertEntry key value keyspace.entries
  sorted := sorted_insertEntry key value keyspace.sorted

/-- Removes a key. -/
def erase (keyspace : Keyspace) (key : Bytes) : Keyspace where
  entries := keyspace.entries.filter (·.1 != key)
  sorted := keyspace.sorted.filter _

/-- Removes a key and answers the value that it had. -/
def remove (keyspace : Keyspace) (key : Bytes) : Option Bytes × Keyspace :=
  (keyspace.get? key, keyspace.erase key)

/-- Removes keys one after the other, and counts those that were there when their turn came. -/
def eraseAll (keyspace : Keyspace) (keys : List Bytes) : Nat × Keyspace :=
  keys.foldl
    (fun (removed, keyspace) key =>
      (if (keyspace.get? key).isSome then removed + 1 else removed, keyspace.erase key))
    (0, keyspace)

/-- The keyspace that results from giving keys their values in the order of the list. -/
def ofList (entries : List (Bytes × Bytes)) : Keyspace :=
  entries.foldl (fun keyspace (key, value) => keyspace.insert key value) empty

/-! ## Values after a change -/

theorem lookup_cons (entry : Bytes × Bytes) (rest : List (Bytes × Bytes)) (key : Bytes) :
    (entry :: rest).lookup key = if key = entry.1 then some entry.2 else rest.lookup key := by
  obtain ⟨name, value⟩ := entry
  rw [List.lookup_cons]
  by_cases h : key = name
  · rw [beq_iff_eq.2 h, if_pos h]
  · rw [beq_false_of_ne h, if_neg h]

@[simp]
theorem get?_empty (key : Bytes) : empty.get? key = none := rfl

theorem lookup_insertEntry (key value other : Bytes) (entries : List (Bytes × Bytes)) :
    (insertEntry key value entries).lookup other =
      if other = key then some value else entries.lookup other := by
  induction entries with
  | nil => exact lookup_cons _ _ _
  | cons entry rest ih =>
    unfold insertEntry
    split
    · rw [lookup_cons]
    · split
      · rename_i heq
        rw [lookup_cons, lookup_cons, ← heq]
        split <;> rfl
      · rename_i hne
        rw [lookup_cons, lookup_cons, ih]
        by_cases h : other = entry.1
        · rw [if_pos h, if_pos h, if_neg (h ▸ Ne.symm hne)]
        · rw [if_neg h, if_neg h]

/-- A key has the value it was last given; the other keys keep theirs. -/
theorem get?_insert (keyspace : Keyspace) (key value other : Bytes) :
    (keyspace.insert key value).get? other =
      if other = key then some value else keyspace.get? other :=
  lookup_insertEntry key value other keyspace.entries

theorem lookup_filter_ne (key other : Bytes) (entries : List (Bytes × Bytes)) :
    (entries.filter (·.1 != key)).lookup other =
      if other = key then none else entries.lookup other := by
  induction entries with
  | nil => exact (ite_self _).symm
  | cons entry rest ih =>
    by_cases he : entry.1 = key
    · rw [List.filter_cons_of_neg (by simp [he]), ih, lookup_cons, he]
      split <;> rfl
    · rw [List.filter_cons_of_pos (by simp [he]), lookup_cons, lookup_cons, ih]
      by_cases h : other = entry.1
      · rw [if_pos h, if_pos h, if_neg (h ▸ he)]
      · rw [if_neg h, if_neg h]

/-- A key that was removed has no value; the other keys keep theirs. -/
theorem get?_erase (keyspace : Keyspace) (key other : Bytes) :
    (keyspace.erase key).get? other = if other = key then none else keyspace.get? other :=
  lookup_filter_ne key other keyspace.entries

theorem get?_foldl_erase (keys : List Bytes) (removed : Nat) (keyspace : Keyspace) (other : Bytes) :
    (keys.foldl
      (fun (removed, keyspace) key =>
        (if (keyspace.get? key).isSome then removed + 1 else removed, keyspace.erase key))
      (removed, keyspace)).2.get? other = if other ∈ keys then none else keyspace.get? other := by
  induction keys generalizing removed keyspace with
  | nil => exact (if_neg List.not_mem_nil).symm
  | cons key keys ih =>
    rw [List.foldl_cons, ih, get?_erase]
    by_cases hkeys : other ∈ keys
    · rw [if_pos hkeys, if_pos (List.mem_cons_of_mem key hkeys)]
    · rw [if_neg hkeys]
      by_cases hkey : other = key
      · rw [if_pos hkey, if_pos (List.mem_cons.2 (.inl hkey))]
      · rw [if_neg hkey, if_neg fun hmem => (List.mem_cons.1 hmem).elim hkey hkeys]

/-- The keys that are listed have no value any more; the other keys keep theirs. -/
theorem get?_eraseAll (keyspace : Keyspace) (keys : List Bytes) (other : Bytes) :
    (keyspace.eraseAll keys).2.get? other = if other ∈ keys then none else keyspace.get? other :=
  get?_foldl_erase keys 0 keyspace other

/-! ## Values tell keyspaces apart -/

theorem lookup_eq_some_iff_mem {entries : List (Bytes × Bytes)} {key value : Bytes}
    (h : entries.Pairwise (fun a b => a.1 < b.1)) :
    entries.lookup key = some value ↔ (key, value) ∈ entries := by
  induction entries with
  | nil => simp
  | cons entry rest ih =>
    obtain ⟨hentry, hrest⟩ := List.pairwise_cons.1 h
    rw [lookup_cons, List.mem_cons]
    by_cases hkey : key = entry.1
    · have hbehind : (key, value) ∉ rest := fun hmem =>
        Std.ne_of_lt (hentry _ hmem) hkey.symm
      rw [if_pos hkey, Option.some.injEq]
      constructor
      · intro hvalue
        exact .inl (Prod.ext hkey hvalue.symm)
      · rintro (heq | hmem)
        · rw [← heq]
        · exact absurd hmem hbehind
    · have hfront : (key, value) ≠ entry := fun heq => hkey (heq ▸ rfl)
      rw [if_neg hkey, ih hrest]
      exact (or_iff_right hfront).symm

/-- A keyspace lists exactly the keys that have a value, with that value. -/
theorem mem_entries_iff {keyspace : Keyspace} {key value : Bytes} :
    (key, value) ∈ keyspace.entries ↔ keyspace.get? key = some value :=
  (lookup_eq_some_iff_mem keyspace.sorted).symm

theorem nodup_entries (keyspace : Keyspace) : keyspace.entries.Nodup :=
  keyspace.sorted.imp fun hlt heq => Std.ne_of_lt hlt (congrArg Prod.fst heq)

/-- Two keyspaces that give every key the same value are equal. They list the same entries, and these
have only one order. -/
theorem ext_get? {a b : Keyspace} (h : ∀ key, a.get? key = b.get? key) : a = b := by
  have hmem (entry : Bytes × Bytes) : entry ∈ a.entries ↔ entry ∈ b.entries := by
    rw [mem_entries_iff, mem_entries_iff, h]
  have hperm : a.entries.Perm b.entries :=
    (List.perm_ext_iff_of_nodup a.nodup_entries b.nodup_entries).2 hmem
  have hentries : a.entries = b.entries := by
    refine hperm.eq_of_pairwise (fun x y _ _ hxy hyx => ?_) a.sorted b.sorted
    exact absurd hyx (List.lt_asymm hxy)
  obtain ⟨entries, _⟩ := a
  cases hentries
  rfl

end Keyspace

end LogStore
