import LogStore.Replay

/-!
# What a replay comes to

A replay goes through its requests one by one, with a keyspace, a count and warnings in its hands.
What it has in the end can be said without it, request by request: the keyspace is what the
operations leave that are carried out one after the other (`Vocabulary.carryOut`), each request that
asks for something is counted, and there is a warning for each of those whose name is not known or
which has the wrong number of arguments (`Vocabulary.rejects`). One step is followed first
(`Replay.step_eq`), any number of them by induction (`Replay.run_eq`).
-/

namespace LogStore

/-! ## What a request asks of its operation -/

/-- Whether the operation takes so many arguments. -/
def Operation.takes : Operation → Nat → Bool
  | .get, count => count == 1
  | .set, count => count == 2
  | .del, count => count != 0

/-- Nothing but the number of its arguments decides whether an operation is refused. -/
theorem Operation.isOk_run (operation : Operation) (keyspace : Keyspace) (arguments : List Bytes) :
    (operation.run keyspace arguments).1.isOk = operation.takes arguments.length := by
  cases operation with
  | get =>
    match arguments with
    | [] | _ :: _ :: _ => rfl
    | [key] => cases hvalue : keyspace.get? key <;> simp only [run, hvalue] <;> rfl
  | set =>
    match arguments with
    | [] | [_] | [_, _] | _ :: _ :: _ :: _ => rfl
  | del =>
    match arguments with
    | [] | _ :: _ => rfl

namespace Vocabulary

/-- The keyspace that the operation of a request leaves. -/
def carryOut (vocabulary : Vocabulary) (keyspace : Keyspace) (request : Request) : Keyspace :=
  match request.arguments with
  | [] => keyspace
  | name :: arguments =>
    match vocabulary.lookup name with
    | none => keyspace
    | some entry => (entry.operation.run keyspace arguments).2

/-- Whether a request asks for something that is not to be had: its name is not known, or stands for
an operation that does not take so many arguments. -/
def rejects (vocabulary : Vocabulary) (request : Request) : Bool :=
  match request.arguments with
  | [] => false
  | name :: arguments =>
    match vocabulary.lookup name with
    | none => true
    | some entry => !entry.operation.takes arguments.length

/-- The warning that a request is not carried out in a replay: its name is not known, or stands for
a command that does not take these arguments. -/
def warning (vocabulary : Vocabulary) (request : Request) : Notice :=
  let name := request.arguments.headD []
  match vocabulary.lookup name with
  | none => .replayUnknown name
  | some entry => .replayFailed entry.name (.wrongArity entry.operation)

end Vocabulary

namespace Replay

/-! ## One request -/

/-- A replay carries the request out, counts it if it asks for something, and warns of it if it is
rejected. -/
theorem step_eq (vocabulary : Vocabulary) (replay : Replay) (request : Request) :
    step vocabulary replay request =
      { keyspace := vocabulary.carryOut replay.keyspace request
        count := replay.count + if request.arguments = [] then 0 else 1
        warnings := replay.warnings ++
          if vocabulary.rejects request then [vocabulary.warning request] else [] } := by
  cases harguments : request.arguments with
  | nil => simp [step, Vocabulary.carryOut, Vocabulary.rejects, harguments]
  | cons name arguments =>
    cases hlookup : vocabulary.lookup name with
    | none =>
      simp [step, Vocabulary.carryOut, Vocabulary.rejects, Vocabulary.warning, harguments, hlookup]
    | some entry =>
      have hisOk := entry.operation.isOk_run replay.keyspace arguments
      rcases hrun : entry.operation.run replay.keyspace arguments with ⟨answer, next⟩
      rw [hrun] at hisOk
      cases answer with
      | error refusal =>
        have htakes : entry.operation.takes arguments.length = false := hisOk.symm
        have hrefusal := (Operation.of_run_eq_error hrun).1
        simp [step, Vocabulary.carryOut, Vocabulary.rejects, Vocabulary.warning, harguments, hlookup,
          hrun, htakes, hrefusal]
      | ok reply =>
        have htakes : entry.operation.takes arguments.length = true := hisOk.symm
        simp [step, Vocabulary.carryOut, Vocabulary.rejects, harguments, hlookup, hrun, htakes]

/-! ## All requests -/

theorem run_eq (vocabulary : Vocabulary) (replay : Replay) (requests : List Request) :
    run vocabulary replay requests =
      { keyspace := requests.foldl vocabulary.carryOut replay.keyspace
        count := replay.count + (requests.filter (·.arguments ≠ [])).length
        warnings := replay.warnings ++
          (requests.filter vocabulary.rejects).map vocabulary.warning } := by
  induction requests generalizing replay with
  | nil => simp [run]
  | cons request requests ih =>
    have hcount : ((request :: requests).filter (·.arguments ≠ [])).length =
        (if request.arguments = [] then 0 else 1) +
          (requests.filter (·.arguments ≠ [])).length := by
      by_cases h : request.arguments = []
      · rw [List.filter_cons_of_neg (by simp [h]), if_pos h, Nat.zero_add]
      · rw [List.filter_cons_of_pos (by simp [h]), if_neg h, List.length_cons, Nat.add_comm]
    rw [run, List.foldl_cons]
    refine (ih _).trans ?_
    rw [step_eq, hcount, List.foldl_cons]
    cases hrejects : vocabulary.rejects request <;> simp [hrejects, Nat.add_assoc]

/-- A replay of two lists of requests is one of the first and then one of the second, which begins
with the keyspace of the first and of which nothing else depends on the first. -/
theorem run_append_eq (vocabulary : Vocabulary) (replay : Replay) (a b : List Request) :
    run vocabulary replay (a ++ b) =
      let first := run vocabulary replay a
      let second := run vocabulary { keyspace := first.keyspace } b
      { keyspace := second.keyspace
        count := first.count + second.count
        warnings := first.warnings ++ second.warnings } := by
  rw [run_append, run_eq vocabulary (run vocabulary replay a) b]
  simp [run_eq vocabulary { keyspace := (run vocabulary replay a).keyspace } b]

end Replay

end LogStore
