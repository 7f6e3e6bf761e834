import LogStore.Proofs.Engine.Execution
import LogStore.Proofs.Vocabulary.Registration

/-!
# Effects

Whatever has been registered, in whatever order and under whatever names, there are seven reasons
why a request changes nothing (`Engine.Inert`). They are all there are: a request without such a
reason is staged as it was received and changes the keyspace as its operation says
(`Engine.execute_eq_of_registrations`). Names that the engine answers itself can be registered too,
but what is registered under them is never carried out.

The engine keeps the keyspace that an operation leaves also if the operation is refused. That this is
the one from before is a property of the operations (`Operation.of_run_eq_error`).
-/

namespace LogStore

namespace Engine

/-- Why a request that is carried out on the keyspace changes nothing. -/
inductive Inert (registrations : List Vocabulary.Entry) (keyspace : Keyspace) (request : Request) :
    Prop
  /-- It asks for nothing. -/
  | silent (harguments : request.arguments = [])
  /-- It takes leave. -/
  | quit {name : Bytes} {arguments : List Bytes}
      (harguments : request.arguments = name :: arguments) (hname : name.toLower = quitName)
  /-- It asks for a sign of life. -/
  | ping {name : Bytes} {arguments : List Bytes}
      (harguments : request.arguments = name :: arguments) (hname : name.toLower = pingName)
  /-- Its name is not UTF-8. -/
  | notText {name : Bytes} {arguments : List Bytes}
      (harguments : request.arguments = name :: arguments) (hname : ¬ Utf8.IsText name)
  /-- Nothing is registered under its name. -/
  | unregistered {name : Bytes} {arguments : List Bytes}
      (harguments : request.arguments = name :: arguments)
      (hname : ∀ entry ∈ registrations, entry.key ≠ name.toLower)
  /-- Its name stands for an operation that reads. -/
  | read {name : Bytes} {arguments : List Bytes} {entry : Vocabulary.Entry}
      (harguments : request.arguments = name :: arguments)
      (hlast : Vocabulary.IsLast registrations name entry)
      (haccess : entry.operation.access = .read)
  /-- The operation is refused. -/
  | refused {name : Bytes} {arguments : List Bytes} {entry : Vocabulary.Entry} {refusal : Refusal}
      (harguments : request.arguments = name :: arguments)
      (hlast : Vocabulary.IsLast registrations name entry)
      (hrun : (entry.operation.run keyspace arguments).1 = .error refusal)

variable {engine : Engine} {request : Request} {registrations : List Vocabulary.Entry}

/-- A write that succeeds has none of the reasons. -/
theorem not_inert_of_run {name : Bytes} {arguments : List Bytes} {entry : Vocabulary.Entry}
    {keyspace next : Keyspace} {reply : Reply} (harguments : request.arguments = name :: arguments)
    (hname : Ordinary name) (hlast : Vocabulary.IsLast registrations name entry)
    (haccess : entry.operation.access = .write)
    (hrun : entry.operation.run keyspace arguments = (.ok reply, next)) :
    ¬ Inert registrations keyspace request := by
  have hlookup := Vocabulary.lookup_registerAll_eq_some_iff.2 hlast
  -- The name stands for one thing only, so what else it may be said to stand for is the entry.
  have hunique : ∀ other, Vocabulary.IsLast registrations name other → other = entry := by
    intro other hother
    have hsame := Vocabulary.lookup_registerAll_eq_some_iff.2 hother
    exact Option.some.inj (hsame.symm.trans hlookup)
  intro hinert
  cases hinert with
  | silent hnone => cases hnone.symm.trans harguments
  | quit hargs hquit =>
    cases hargs.symm.trans harguments
    exact hname.1 hquit
  | ping hargs hping =>
    cases hargs.symm.trans harguments
    exact hname.2 hping
  | notText hargs htext =>
    cases hargs.symm.trans harguments
    exact htext (Vocabulary.isText_of_lookup hlookup)
  | unregistered hargs hunknown =>
    cases hargs.symm.trans harguments
    rw [Vocabulary.lookup_registerAll_eq_none_iff.2 hunknown] at hlookup
    cases hlookup
  | read hargs hother hread =>
    cases hargs.symm.trans harguments
    rw [hunique _ hother, haccess] at hread
    cases hread
  | refused hargs hother hrefused =>
    cases hargs.symm.trans harguments
    rw [hunique _ hother, hrun] at hrefused
    cases hrefused

/-- A request has a reason to change nothing, or it is a write that succeeds. -/
theorem inert_or_run (hvocabulary : engine.vocabulary = Vocabulary.empty.registerAll registrations)
    (request : Request) :
    (Inert registrations engine.keyspace request ∧ (engine.execute request).2 = engine) ∨
      ∃ name arguments entry reply keyspace, request.arguments = name :: arguments ∧
        Ordinary name ∧ Vocabulary.IsLast registrations name entry ∧
        entry.operation.access = .write ∧
        entry.operation.run engine.keyspace arguments = (.ok reply, keyspace) ∧
        (engine.execute request).2 =
          { engine with keyspace, staged := engine.staged ++ request.raw } := by
  have hknown : ∀ {name entry}, engine.vocabulary.lookup name = some entry →
      Vocabulary.IsLast registrations name entry := by
    intro name entry hlookup
    rw [hvocabulary] at hlookup
    exact Vocabulary.lookup_registerAll_eq_some_iff.1 hlookup
  have hexecutes := engine.executes request
  generalize engine.execute request = result at hexecutes
  cases hexecutes with
  | silent harguments => exact .inl ⟨.silent harguments, rfl⟩
  | quit harguments hname => exact .inl ⟨.quit harguments hname, rfl⟩
  | ping harguments hname => exact .inl ⟨.ping harguments hname, rfl⟩
  | unknown harguments _ hlookup =>
    rw [hvocabulary] at hlookup
    have hunknown := Vocabulary.lookup_registerAll_eq_none_iff.1 hlookup
    exact .inl ⟨.unregistered harguments hunknown, rfl⟩
  | refused harguments _ hlookup hrun =>
    exact .inl ⟨.refused harguments (hknown hlookup) (congrArg Prod.fst hrun), rfl⟩
  | read harguments _ hlookup haccess _ =>
    exact .inl ⟨.read harguments (hknown hlookup) haccess, rfl⟩
  | write harguments hname hlookup haccess hrun =>
    exact .inr ⟨_, _, _, _, _, harguments, hname, hknown hlookup, haccess, hrun, rfl⟩

/-- **A request changes nothing if there is one of the seven reasons, and otherwise exactly what a
successful write changes.** -/
theorem execute_eq_of_registrations
    (hvocabulary : engine.vocabulary = Vocabulary.empty.registerAll registrations)
    (request : Request) :
    (Inert registrations engine.keyspace request → (engine.execute request).2 = engine) ∧
      (¬ Inert registrations engine.keyspace request →
        ∃ name arguments entry reply keyspace, request.arguments = name :: arguments ∧
          Vocabulary.IsLast registrations name entry ∧ entry.operation.access = .write ∧
          entry.operation.run engine.keyspace arguments = (.ok reply, keyspace) ∧
          (engine.execute request).2 =
            { engine with keyspace, staged := engine.staged ++ request.raw }) := by
  rcases inert_or_run hvocabulary request with ⟨hinert, hsame⟩ |
    ⟨name, arguments, entry, reply, keyspace, harguments, hname, hlast, haccess, hrun, hnext⟩
  · exact ⟨fun _ => hsame, fun hnot => absurd hinert hnot⟩
  · have hnot := not_inert_of_run harguments hname hlast haccess hrun
    refine ⟨fun hinert => absurd hinert hnot, fun _ => ?_⟩
    exact ⟨name, arguments, entry, reply, keyspace, harguments, hlast, haccess, hrun, hnext⟩

/-- `Ping` is registered as a write and is still a sign of life. `put` was registered as `set` first
and as `del` last, and removes the two of its three keys that are there. With a byte behind it that
is no text, it is no name of anything. Without keys, or with a key and no value for it, a command is
refused, and the keyspace that is kept then is the one from before. -/
theorem execute_eq_of_registrations_overridden :
    let registrations : List Vocabulary.Entry :=
      [⟨"put", .set⟩, ⟨"Ping", .set⟩, ⟨"PUT", .del⟩, ⟨"store", .set⟩]
    let engine : Engine :=
      { settings := {}, vocabulary := .registerAll .empty registrations,
        keyspace := .ofList [([97], [1]), ([98], [2]), ([99], [3])], staged := [7],
        log := { path := "log", device := .file [], policy := .no } }
    let request (name : Bytes) (arguments : List Bytes) : Request :=
      ⟨[8, 9], name :: arguments, .multibulk, true⟩
    engine.vocabulary = Vocabulary.empty.registerAll registrations ∧
      (engine.execute (request (Utf8.encode "pING") [[97], [1]])).2 = engine ∧
      (engine.execute (request (Utf8.encode "put" ++ [0xFF]) [[97]])).2 = engine ∧
      (Operation.run .del engine.keyspace []).1 = .error (.wrongArity .del) ∧
      (engine.execute (request (Utf8.encode "pUt") [])).2 = engine ∧
      (Operation.run .set engine.keyspace [[97]]).1 = .error (.wrongArity .set) ∧
      (engine.execute (request (Utf8.encode "Store") [[97]])).2 = engine ∧
      let next := (engine.execute (request (Utf8.encode "Put") [[99], [120], [97], [99]])).2
      next = { engine with keyspace := .ofList [([98], [2])], staged := [7, 8, 9] } := by
  intro registrations engine request
  have hvocabulary : engine.vocabulary = Vocabulary.empty.registerAll registrations := rfl
  have hput : ∀ name : Bytes, name.toLower = Utf8.encode "put" →
      Vocabulary.IsLast registrations name ⟨"PUT", .del⟩ := by
    intro name hname
    refine ⟨registrations.take 2, registrations.drop 3, rfl, ?_, ?_⟩
    · rw [hname]
      decide +kernel
    · rw [hname]
      decide +kernel
  refine ⟨hvocabulary, ?_, ?_, rfl, ?_, rfl, ?_, ?_⟩
  · refine (execute_eq_of_registrations hvocabulary _).1 (.ping rfl ?_)
    decide +kernel
  · refine (execute_eq_of_registrations hvocabulary _).1 (.unregistered rfl ?_)
    decide +kernel
  · refine (execute_eq_of_registrations hvocabulary _).1 (.refused rfl (hput _ ?_) rfl)
    decide +kernel
  · have hlast : Vocabulary.IsLast registrations (Utf8.encode "Store") ⟨"store", .set⟩ :=
      ⟨registrations.take 3, [], rfl, by decide +kernel, nofun⟩
    exact (execute_eq_of_registrations hvocabulary _).1 (.refused rfl hlast rfl)
  · have hlast : Vocabulary.IsLast registrations (Utf8.encode "Put") ⟨"PUT", .del⟩ :=
      hput _ (by decide +kernel)
    have hordinary : Ordinary (Utf8.encode "Put") := ⟨by decide +kernel, by decide +kernel⟩
    have hnot : ¬ Inert registrations engine.keyspace
        (request (Utf8.encode "Put") [[99], [120], [97], [99]]) :=
      not_inert_of_run rfl hordinary hlast rfl rfl
    obtain ⟨name, arguments, entry, reply, keyspace, harguments, hentry, -, hrun, hnext⟩ :=
      (execute_eq_of_registrations hvocabulary _).2 hnot
    cases harguments
    have hsame := Vocabulary.lookup_registerAll_eq_some_iff.2 hentry
    rw [Vocabulary.lookup_registerAll_eq_some_iff.2 hlast] at hsame
    cases hsame
    cases hrun
    exact hnext

end Engine

end LogStore
