import Mathlib.Data.List.Dedup
import LogStore.Operation

/-!
# Removing keys

Keys are removed one after the other, and each is counted if it was there when its turn came. So
the count depends on the keyspace as it changes on the way. What comes of it depends on neither the
order of the keys nor how often each is named (`Operation.run_del_eq`): a key that counts takes one
entry away, so the count is the number of entries that are gone
(`Keyspace.removed_add_size_eraseAll`), and these are the entries whose keys are listed
(`Keyspace.entries_eraseAll`).
-/

namespace LogStore

namespace Keyspace

variable {keyspace : Keyspace} {key : Bytes}

/-! ## The keys of a keyspace -/

/-- The keys, in order. -/
def keys (keyspace : Keyspace) : List Bytes :=
  keyspace.entries.map Prod.fst

/-- No key comes twice, since keys ascend. -/
theorem nodup_keys (keyspace : Keyspace) : keyspace.keys.Nodup :=
  List.pairwise_map.2 (keyspace.sorted.imp Std.ne_of_lt)

theorem isSome_get?_iff : (keyspace.get? key).isSome ↔ key ∈ keyspace.keys := by
  rw [get?, List.lookup_isSome_iff, keys, List.mem_map]
  constructor
  · rintro ⟨entry, hentry, hkey⟩
    exact ⟨entry, hentry, (beq_iff_eq.1 hkey).symm⟩
  · rintro ⟨entry, hentry, rfl⟩
    exact ⟨entry, hentry, BEq.rfl⟩

/-! ## Removing one key -/

/-- A key that is there takes one entry with it, and another one none. -/
theorem size_erase (keyspace : Keyspace) (key : Bytes) :
    (if (keyspace.get? key).isSome then 1 else 0) + (keyspace.erase key).size = keyspace.size := by
  have hcount : (if (keyspace.get? key).isSome then 1 else 0) =
      (keyspace.entries.filter (·.1 == key)).length := by
    simp only [isSome_get?_iff]
    rw [← keyspace.nodup_keys.count, keys, List.count, List.countP_map,
      List.countP_eq_length_filter]
    rfl
  rw [hcount]
  exact (List.length_eq_length_filter_add (l := keyspace.entries) (·.1 == key)).symm

/-! ## Removing keys one after the other -/

theorem foldl_erase_eq (names : List Bytes) (removed : Nat) (keyspace : Keyspace) :
    names.foldl
      (fun (removed, keyspace) key =>
        (if (keyspace.get? key).isSome then removed + 1 else removed, keyspace.erase key))
      (removed, keyspace) =
      (removed + (keyspace.eraseAll names).1, (keyspace.eraseAll names).2) := by
  induction names generalizing removed keyspace with
  | nil => rfl
  | cons key names ih =>
    rw [eraseAll, List.foldl_cons, List.foldl_cons, ih, ih]
    split
    · rw [Nat.zero_add, Nat.add_assoc]
    · rw [Nat.zero_add]

/-- The first key counts if it is there, and the others are looked for in what it leaves. -/
theorem eraseAll_cons (keyspace : Keyspace) (key : Bytes) (names : List Bytes) :
    keyspace.eraseAll (key :: names) =
      ((if (keyspace.get? key).isSome then 1 else 0) + ((keyspace.erase key).eraseAll names).1,
        ((keyspace.erase key).eraseAll names).2) := by
  rw [eraseAll, List.foldl_cons, foldl_erase_eq]

/-- What was counted and what is left are together what there was. The induction is on the keys,
over a keyspace that changes on the way. -/
theorem removed_add_size_eraseAll (keyspace : Keyspace) (names : List Bytes) :
    (keyspace.eraseAll names).1 + (keyspace.eraseAll names).2.size = keyspace.size := by
  induction names generalizing keyspace with
  | nil => exact Nat.zero_add _
  | cons key names ih =>
    have hone := size_erase keyspace key
    rw [eraseAll_cons, Nat.add_assoc, ih]
    exact hone

theorem entries_eraseAll (keyspace : Keyspace) (names : List Bytes) :
    (keyspace.eraseAll names).2.entries = keyspace.entries.filter (·.1 ∉ names) := by
  induction names generalizing keyspace with
  | nil => simp [eraseAll]
  | cons key names ih =>
    rw [eraseAll_cons, ih, erase, List.filter_filter]
    refine List.filter_congr fun entry _ => ?_
    rw [Bool.eq_iff_iff]
    simp [and_comm]

/-- The keys that count are the listed ones that were there, each once. -/
theorem removed_eraseAll (keyspace : Keyspace) (names : List Bytes) :
    (keyspace.eraseAll names).1 =
      (names.dedup.filter fun key => (keyspace.get? key).isSome).length := by
  -- The entries that are gone have as their keys the listed keys that were there.
  have hgone : (keyspace.eraseAll names).1 =
      (keyspace.keys.filter (· ∈ names)).length := by
    have hcount := keyspace.removed_add_size_eraseAll names
    have hsplit := List.length_eq_length_filter_add (l := keyspace.entries) (·.1 ∈ names)
    rw [size, size, entries_eraseAll] at hcount
    rw [keys, List.filter_map, List.length_map]
    simp only [decide_not, Function.comp_def] at hcount ⊢
    omega
  have hperm : (keyspace.keys.filter (· ∈ names)).Perm
      (names.dedup.filter fun key => (keyspace.get? key).isSome) := by
    refine (List.perm_ext_iff_of_nodup (keyspace.nodup_keys.filter _)
      ((List.nodup_dedup names).filter _)).2 fun key => ?_
    rw [List.mem_filter, List.mem_filter, List.mem_dedup, isSome_get?_iff, decide_eq_true_iff,
      and_comm]
  rw [hgone, hperm.length_eq]

/-- Only which keys are listed matters: neither their order nor how often each is listed. -/
theorem eraseAll_congr (keyspace : Keyspace) {names others : List Bytes}
    (h : ∀ key, key ∈ others ↔ key ∈ names) :
    keyspace.eraseAll others = keyspace.eraseAll names := by
  have hleft : (keyspace.eraseAll others).2 = (keyspace.eraseAll names).2 := by
    refine ext_get? fun key => ?_
    simp only [get?_eraseAll, h]
  -- The counts agree since what is left does.
  have hcount : (keyspace.eraseAll others).1 = (keyspace.eraseAll names).1 := by
    have hothers := keyspace.removed_add_size_eraseAll others
    have hnames := keyspace.removed_add_size_eraseAll names
    rw [hleft] at hothers
    omega
  exact Prod.ext hcount hleft

end Keyspace

namespace Operation

/-- With at least one key, `del` removes the keys and says how many it removed. -/
theorem run_del (keyspace : Keyspace) {names : List Bytes} (hnames : names ≠ []) :
    Operation.run .del keyspace names =
      (.ok (.integer (keyspace.eraseAll names).1), (keyspace.eraseAll names).2) := by
  cases names with
  | nil => exact absurd rfl hnames
  | cons key names => rfl

/-- `del` counts the distinct keys of its list that are there, which is the number of entries it
takes away. Afterwards no listed key has a value and every other key keeps its own, and any list of
the same keys, in any order and with any repetitions, has the same reply and leaves the same
keyspace. -/
theorem run_del_eq (keyspace : Keyspace) {names : List Bytes} (hnames : names ≠ []) :
    let present := (names.dedup.filter fun key => (keyspace.get? key).isSome).length
    ∃ next : Keyspace,
      Operation.run .del keyspace names = (.ok (.integer present), next) ∧
      present = keyspace.size - next.size ∧ next.size ≤ keyspace.size ∧
      (∀ key, next.get? key = if key ∈ names then none else keyspace.get? key) ∧
      ∀ others : List Bytes, (∀ key, key ∈ others ↔ key ∈ names) →
        Operation.run .del keyspace others = Operation.run .del keyspace names := by
  intro present
  have hcount : (keyspace.eraseAll names).1 = present := keyspace.removed_eraseAll names
  have hsize := keyspace.removed_add_size_eraseAll names
  rw [hcount] at hsize
  refine ⟨(keyspace.eraseAll names).2, ?_, by omega, by omega, keyspace.get?_eraseAll names, ?_⟩
  · rw [run_del keyspace hnames, hcount]
  · intro others hsame
    -- A list with the same keys is not empty either.
    have hothers : others ≠ [] := by
      rintro rfl
      obtain ⟨key, hkey⟩ := List.exists_mem_of_ne_nil names hnames
      exact List.not_mem_nil ((hsame key).2 hkey)
    rw [run_del keyspace hnames, run_del keyspace hothers, keyspace.eraseAll_congr hsame]

/-- Two of three entries go when a list names one of them twice, another one once, and a key that is
not there. -/
theorem run_del_eq_repeated :
    let keyspace := Keyspace.ofList [([97], [1]), ([98], [2]), ([99], [3])]
    let names : List Bytes := [[97], [120], [97], [99]]
    names ≠ [] ∧
    (names.dedup.filter fun key => (keyspace.get? key).isSome).length = 2 ∧
    (∃ next : Keyspace, Operation.run .del keyspace names = (.ok (.integer 2), next) ∧
      2 = keyspace.size - next.size) ∧
    Operation.run .del keyspace [[99], [97], [120]] = Operation.run .del keyspace names := by
  intro keyspace names
  have hnames : names ≠ [] := List.cons_ne_nil _ _
  have hpresent : (names.dedup.filter fun key => (keyspace.get? key).isSome).length = 2 := by
    decide +kernel
  obtain ⟨next, hrun, hsize, -, -, hothers⟩ := run_del_eq keyspace hnames
  rw [hpresent] at hrun hsize
  refine ⟨hnames, hpresent, ⟨next, hrun, hsize⟩, hothers _ fun key => ?_⟩
  simp only [names, List.mem_cons, List.not_mem_nil, or_false]
  tauto

end Operation

end LogStore
