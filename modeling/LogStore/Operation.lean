import LogStore.Keyspace
import LogStore.Reply

/-!
# Operations

What a command can do to the keyspace. `get` only reads; `set` and `del` write. An operation answers
with a reply or with a refusal, and leaves a keyspace in either case: nobody takes back what an
operation has done before it was refused. None of them has done anything
(`Operation.of_run_eq_error`), since each looks at the number of its arguments first.
-/

namespace LogStore

/-- How an operation touches the keyspace. -/
inductive Access where
  /-- It looks at the keyspace only. -/
  | read
  /-- It may change the keyspace. -/
  | write
  deriving DecidableEq, Repr

/-- The name of an access mode. -/
def Access.name : Access → String
  | .read => "Read"
  | .write => "Write"

/-- What a command does. -/
inductive Operation where
  /-- Gives the value of a key. -/
  | get
  /-- Gives a key a value. -/
  | set
  /-- Removes keys. -/
  | del
  deriving DecidableEq, Repr

/-- Why a command is not carried out. -/
inductive Refusal where
  /-- No operation is registered under the name. -/
  | unknownName (name : String)
  /-- The operation does not take that many arguments. -/
  | wrongArity (operation : Operation)
  deriving DecidableEq, Repr

namespace Operation

/-- The name under which an operation speaks of itself. -/
def name : Operation → String
  | .get => "get"
  | .set => "set"
  | .del => "del"

/-- How the operation touches the keyspace. -/
def access : Operation → Access
  | .get => .read
  | .set | .del => .write

/-- Carries out the operation on the arguments of a request: its answer, and the keyspace that it
leaves behind. -/
def run (operation : Operation) (keyspace : Keyspace) (arguments : List Bytes) :
    Except Refusal Reply × Keyspace :=
  match operation, arguments with
  | .get, [key] =>
    match keyspace.get? key with
    | some value => (.ok (.bulk value), keyspace)
    | none => (.ok .null, keyspace)
  | .set, [key, value] => (.ok (.simple "OK"), keyspace.insert key value)
  | .del, key :: keys =>
    let (removed, keyspace) := keyspace.eraseAll (key :: keys)
    (.ok (.integer removed), keyspace)
  | _, _ => (.error (.wrongArity operation), keyspace)

variable {operation : Operation} {keyspace next : Keyspace} {arguments : List Bytes}

/-- An operation that only reads leaves the keyspace as it is. -/
theorem keyspace_eq_of_read {answer : Except Refusal Reply} (hread : operation.access = .read)
    (h : operation.run keyspace arguments = (answer, next)) : next = keyspace := by
  cases operation <;> try contradiction
  unfold run at h
  split at h
  · split at h <;> cases h <;> rfl
  · contradiction
  · contradiction
  · cases h
    rfl

/-- An operation is refused for the number of its arguments only, and then it leaves the keyspace as
it is. -/
theorem of_run_eq_error {refusal : Refusal}
    (h : operation.run keyspace arguments = (.error refusal, next)) :
    refusal = .wrongArity operation ∧ next = keyspace := by
  unfold run at h
  split at h
  · split at h <;> cases h
  · cases h
  · cases h
  · cases h
    exact ⟨rfl, rfl⟩

end Operation

namespace Refusal

/-- The text that reports the refusal. -/
def message : Refusal → String
  | .unknownName name => "unknown command '" ++ name ++ "'"
  | .wrongArity operation =>
    "wrong number of arguments for '" ++ operation.name ++ "' command"

/-- The reply that tells the client. -/
def reply (refusal : Refusal) : Reply :=
  .failure refusal.message

end Refusal

end LogStore
