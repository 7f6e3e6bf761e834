import Mathlib.Data.List.Dedup
import LogStore.Proofs.Engine.Execution
import LogStore.Proofs.Vocabulary.Registration

/-!
# What a name stands for

Commands are registered on top of a vocabulary that is given, and the entries of the given one count
as registered before. A name that is no text stands for nothing, nor does one that was never
registered; any other name stands for its last registration (`Vocabulary.resolves_registerAll`).
There are as many entries as registered names that differ in more than the case of ASCII letters.

The engine and a replay know a request by what its name stands for, so they do the same for every
spelling of it (`Engine.execute_of_recased`, `Replay.step_of_recased`). Only an unknown name is told
back as it was spelled.
-/

namespace LogStore

variable {name other : Bytes} {arguments : List Bytes} {a b : Request}

/-! ## The case of a name -/

namespace Engine

theorem Ordinary.recased (h : Ordinary name) (hcase : other.toLower = name.toLower) :
    Ordinary other :=
  ⟨hcase ▸ h.1, hcase ▸ h.2⟩

theorem isWrite_of_recased (engine : Engine) (hcase : other.toLower = name.toLower)
    (ha : a.arguments = name :: arguments) (hb : b.arguments = other :: arguments) :
    engine.isWrite b = engine.isWrite a := by
  simp only [isWrite, ha, hb, hcase, engine.vocabulary.lookup_congr hcase]

/-- Requests that differ in the case of the name only are the same to the engine, unless it does not
know the name: then it says so, with the name as it was spelled. -/
theorem execute_of_recased (engine : Engine) (hcase : other.toLower = name.toLower)
    (ha : a.arguments = name :: arguments) (hb : b.arguments = other :: arguments) :
    (engine.execute b).2.keyspace = (engine.execute a).2.keyspace ∧
      ((engine.execute b).1 = (engine.execute a).1 ∨
        Ordinary name ∧ engine.vocabulary.lookup name = none) := by
  have hlookups : engine.vocabulary.lookup other = engine.vocabulary.lookup name :=
    engine.vocabulary.lookup_congr hcase
  -- Each rule that holds of the one request holds of the other one.
  have hexecutes := engine.executes a
  generalize engine.execute a = result at hexecutes
  cases hexecutes with
  | silent harguments => cases ha.symm.trans harguments
  | quit harguments hname =>
    cases ha.symm.trans harguments
    rw [(Executes.quit hb (hcase.trans hname)).execute_eq]
    exact ⟨rfl, .inl rfl⟩
  | ping harguments hname =>
    cases ha.symm.trans harguments
    rw [(Executes.ping hb (hcase.trans hname)).execute_eq]
    exact ⟨rfl, .inl rfl⟩
  | unknown harguments hname hlookup =>
    cases ha.symm.trans harguments
    have hother := hlookups.trans hlookup
    rw [(Executes.unknown hb (hname.recased hcase) hother).execute_eq]
    exact ⟨rfl, .inr ⟨hname, hlookup⟩⟩
  | refused harguments hname hlookup hrun =>
    cases ha.symm.trans harguments
    have hother := hlookups.trans hlookup
    rw [(Executes.refused hb (hname.recased hcase) hother hrun).execute_eq]
    exact ⟨rfl, .inl rfl⟩
  | read harguments hname hlookup haccess hrun =>
    cases ha.symm.trans harguments
    have hother := hlookups.trans hlookup
    rw [(Executes.read hb (hname.recased hcase) hother haccess hrun).execute_eq]
    exact ⟨rfl, .inl rfl⟩
  | write harguments hname hlookup haccess hrun =>
    cases ha.symm.trans harguments
    have hother := hlookups.trans hlookup
    rw [(Executes.write hb (hname.recased hcase) hother haccess hrun).execute_eq]
    exact ⟨rfl, .inl rfl⟩

end Engine

/-- Requests that differ in the case of the name only are the same to a replay, unless the name is
not known: then the warnings differ in its spelling. -/
theorem Replay.step_of_recased (vocabulary : Vocabulary) (replay : Replay)
    (hcase : other.toLower = name.toLower) (ha : a.arguments = name :: arguments)
    (hb : b.arguments = other :: arguments) :
    (step vocabulary replay b).keyspace = (step vocabulary replay a).keyspace ∧
      (step vocabulary replay b).count = (step vocabulary replay a).count ∧
      (step vocabulary replay b = step vocabulary replay a ∨ vocabulary.lookup name = none) := by
  simp only [step, ha, hb, vocabulary.lookup_congr hcase]
  cases hlookup : vocabulary.lookup name with
  | none => exact ⟨rfl, rfl, .inr rfl⟩
  | some entry => exact ⟨rfl, rfl, .inl rfl⟩

namespace Vocabulary

variable {vocabulary : Vocabulary} {registrations : List Entry} {entry : Entry} {key : Bytes}

/-! ## The names that are registered -/

/-- The names of the entries, in the form in which they are compared. -/
def keys (vocabulary : Vocabulary) : List Bytes :=
  vocabulary.entries.map Entry.key

theorem nodup_keys (vocabulary : Vocabulary) : vocabulary.keys.Nodup :=
  List.pairwise_map.2 vocabulary.distinct

theorem mem_keys_register :
    key ∈ (vocabulary.register entry.name entry.operation).keys ↔
      key = entry.key ∨ key ∈ vocabulary.keys := by
  have hkeys : (vocabulary.register entry.name entry.operation).keys =
      entry.key :: (vocabulary.entries.filter (·.key != entry.key)).map Entry.key := rfl
  rw [hkeys, List.mem_cons]
  by_cases hkey : key = entry.key
  · exact iff_of_true (.inl hkey) (.inl hkey)
  · -- What was taken out has another name.
    rw [or_iff_right hkey, or_iff_right hkey, keys, List.mem_map, List.mem_map]
    constructor
    · rintro ⟨known, hknown, rfl⟩
      exact ⟨known, (List.mem_filter.1 hknown).1, rfl⟩
    · rintro ⟨known, hknown, rfl⟩
      exact ⟨known, List.mem_filter.2 ⟨hknown, bne_iff_ne.2 hkey⟩, rfl⟩

theorem mem_keys_registerAll :
    key ∈ (vocabulary.registerAll registrations).keys ↔
      key ∈ vocabulary.keys ∨ key ∈ registrations.map Entry.key := by
  induction registrations generalizing vocabulary with
  | nil => simp [registerAll]
  | cons entry registrations ih =>
    rw [registerAll, List.foldl_cons, ← registerAll, ih, mem_keys_register, List.map_cons,
      List.mem_cons]
    tauto

/-- All that was registered, first to last: what the given vocabulary knows, and what came then. -/
def registered (given : Vocabulary) (registrations : List Entry) : List Entry :=
  given.entries.reverse ++ registrations

theorem lookup_registerAll_eq_find? (given : Vocabulary) (registrations : List Entry)
    (name : Bytes) :
    (given.registerAll registrations).lookup name =
      (given.registered registrations).reverse.find? (·.key == name.toLower) := by
  rw [lookup_registerAll, registered, List.reverse_append, List.reverse_reverse,
    List.find?_append, lookup]

/-- Names that differ in the case of ASCII letters only have one entry together. -/
theorem size_registerAll (given : Vocabulary) (registrations : List Entry) :
    (given.registerAll registrations).size =
      ((given.registered registrations).map Entry.key).dedup.length := by
  have hperm : (given.registerAll registrations).keys.Perm
      ((given.registered registrations).map Entry.key).dedup := by
    refine (List.perm_ext_iff_of_nodup (nodup_keys _) (List.nodup_dedup _)).2 fun key => ?_
    rw [mem_keys_registerAll, List.mem_dedup, registered, List.map_append, List.map_reverse,
      List.mem_append, List.mem_reverse, keys]
  rw [← hperm.length_eq, keys, List.length_map, size]

/-- **What a name stands for.** A name stands for nothing exactly if it is no text or was never
registered, and otherwise for its last registration, whose spelling and operation it has. There are
as many entries as registered names, case aside. Names that differ in case only stand for the same,
whether a request is carried out or replayed. -/
theorem resolves_registerAll (given : Vocabulary) (registrations : List Entry) :
    let vocabulary := given.registerAll registrations
    let known := given.registered registrations
    (∀ name, vocabulary.lookup name = none ↔
        ¬ Utf8.IsText name ∨ ∀ entry ∈ known, entry.key ≠ name.toLower) ∧
      (∀ name entry, vocabulary.lookup name = some entry ↔
        Utf8.IsText name ∧ IsLast known name entry) ∧
      vocabulary.size = (known.map Entry.key).dedup.length ∧
      ∀ (name other : Bytes) (arguments : List Bytes) (a b : Request),
        other.toLower = name.toLower → a.arguments = name :: arguments →
        b.arguments = other :: arguments →
        vocabulary.lookup other = vocabulary.lookup name ∧
          (∀ engine : Engine, engine.vocabulary = vocabulary →
            (engine.execute b).2.keyspace = (engine.execute a).2.keyspace ∧
            engine.isWrite b = engine.isWrite a ∧
            ((engine.execute b).1 = (engine.execute a).1 ∨
              Engine.Ordinary name ∧ vocabulary.lookup name = none)) ∧
          ∀ replay : Replay,
            (Replay.step vocabulary replay b).keyspace =
              (Replay.step vocabulary replay a).keyspace ∧
            (Replay.step vocabulary replay b).count = (Replay.step vocabulary replay a).count ∧
            (Replay.step vocabulary replay b = Replay.step vocabulary replay a ∨
              vocabulary.lookup name = none) := by
  intro vocabulary known
  have hsome : ∀ name entry, vocabulary.lookup name = some entry ↔ IsLast known name entry := by
    intro name entry
    rw [lookup_registerAll_eq_find?]
    exact find?_reverse_eq_some_iff
  have hnone : ∀ name, vocabulary.lookup name = none ↔
      ∀ entry ∈ known, entry.key ≠ name.toLower := by
    intro name
    rw [lookup_registerAll_eq_find?]
    exact find?_reverse_eq_none_iff
  refine ⟨fun name => ?_, fun name entry => ?_, size_registerAll given registrations, ?_⟩
  · rw [← hnone]
    constructor
    · exact .inr
    · rintro (hnoText | hunknown)
      · refine Option.eq_none_iff_forall_ne_some.2 fun entry hentry => ?_
        exact hnoText (isText_of_lookup hentry)
      · exact hunknown
  · rw [← hsome]
    exact ⟨fun hentry => ⟨isText_of_lookup hentry, hentry⟩, And.right⟩
  · intro name other arguments a b hcase ha hb
    refine ⟨vocabulary.lookup_congr hcase, fun engine hengine => ?_, fun replay => ?_⟩
    · obtain ⟨hkeyspace, houtcome⟩ := engine.execute_of_recased hcase ha hb
      exact ⟨hkeyspace, engine.isWrite_of_recased hcase ha hb, hengine ▸ houtcome⟩
    · exact Replay.step_of_recased vocabulary replay hcase ha hb

/-- On top of the standard commands `get` is registered anew, and twice, and two names of one letter
that are no case of each other. A byte that is no text makes a name of nothing. Two spellings of
`get` both remove the key. -/
theorem resolves_registerAll_anew :
    let registrations : List Entry :=
      [⟨"GET", .set⟩, ⟨"É", .get⟩, ⟨"gEt", .del⟩, ⟨"é", .set⟩]
    let vocabulary := standard.registerAll registrations
    let engine : Engine :=
      { settings := {}, vocabulary, keyspace := .ofList [([97], [1])],
        log := { path := "log", device := .file [], policy := .no } }
    let request (name : String) : Request := ⟨[], [Utf8.encode name, [97]], .multibulk, true⟩
    standard.registered registrations =
        [⟨"get", .get⟩, ⟨"set", .set⟩, ⟨"del", .del⟩] ++ registrations ∧
      vocabulary.lookup (Utf8.encode "GeT") = some ⟨"gEt", .del⟩ ∧
      vocabulary.lookup (Utf8.encode "É") = some ⟨"É", .get⟩ ∧
      vocabulary.lookup (Utf8.encode "é") = some ⟨"é", .set⟩ ∧
      vocabulary.lookup (Utf8.encode "put") = none ∧
      vocabulary.lookup (Utf8.encode "get" ++ [0xFF]) = none ∧ vocabulary.size = 5 ∧
      (Utf8.encode "geT").toLower = (Utf8.encode "GEt").toLower ∧
      (engine.execute (request "geT")).2.keyspace = (engine.execute (request "GEt")).2.keyspace ∧
      (engine.execute (request "GEt")).2.keyspace = .empty := by
  intro registrations vocabulary engine request
  obtain ⟨hnone, hsome, hsize, hsame⟩ := resolves_registerAll standard registrations
  have hcase : (Utf8.encode "geT").toLower = (Utf8.encode "GEt").toLower := by decide +kernel
  have hget : vocabulary.lookup (Utf8.encode "GeT") = some ⟨"gEt", .del⟩ :=
    (hsome _ _).2 ⟨Utf8.isText_encode _, (standard.registered registrations).take 5,
      registrations.drop 3, rfl, by decide +kernel, by decide +kernel⟩
  have hupper : vocabulary.lookup (Utf8.encode "É") = some ⟨"É", .get⟩ :=
    (hsome _ _).2 ⟨Utf8.isText_encode _, (standard.registered registrations).take 4,
      registrations.drop 2, rfl, by decide +kernel, by decide +kernel⟩
  have hlower : vocabulary.lookup (Utf8.encode "é") = some ⟨"é", .set⟩ :=
    (hsome _ _).2 ⟨Utf8.isText_encode _, (standard.registered registrations).take 6,
      [], rfl, by decide +kernel, by decide +kernel⟩
  have hunknown : vocabulary.lookup (Utf8.encode "put") = none :=
    (hnone _).2 (.inr (by decide +kernel))
  have hnoText : vocabulary.lookup (Utf8.encode "get" ++ [0xFF]) = none :=
    (hnone _).2 (.inr (by decide +kernel))
  obtain ⟨-, hexecute, -⟩ :=
    hsame _ _ [[97]] (request "GEt") (request "geT") hcase rfl rfl
  exact ⟨rfl, hget, hupper, hlower, hunknown, hnoText, hsize.trans (by decide +kernel), hcase,
    (hexecute engine rfl).1, by decide +kernel⟩

end Vocabulary

end LogStore
