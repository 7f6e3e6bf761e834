import LogStore.Operation
import LogStore.Text.Quoted

/-!
# The vocabulary

Which operation a command name stands for. Names are told apart by their UTF-8 bytes with the ASCII
letters folded to lower case, so `GET` and `get` are one name, and a later registration of a name
takes the place of an earlier one. A request names its command by bytes; bytes that are not text
have no registered name, since the form of a name is always text.
-/

namespace LogStore

/-- A command that is registered. -/
structure Vocabulary.Entry where
  /-- The name as it was given at registration. -/
  name : String
  /-- What the command does. -/
  operation : Operation
  deriving DecidableEq, Repr

namespace Vocabulary.Entry

/-- The form of the name that is compared. -/
def key (entry : Entry) : Bytes :=
  (Utf8.encode entry.name).toLower

/-- A description for people: the name, quoted, and the access mode. -/
def describe (entry : Entry) : String :=
  "CommandSpec \x7b name: " ++ Quoted.encode entry.name ++ ", access_mode: " ++
    entry.operation.access.name ++ " \x7d"

end Vocabulary.Entry

/-- The commands that are known. -/
structure Vocabulary where
  /-- The registered commands, latest first. -/
  entries : List Vocabulary.Entry
  /-- No two of them have the same name, case aside. -/
  distinct : entries.Pairwise (fun a b => a.key ≠ b.key) := by simp
  deriving DecidableEq

namespace Vocabulary

/-- The vocabulary without commands. -/
def empty : Vocabulary where
  entries := []

/-- Registers an operation under a name, in place of what the name stood for. -/
def register (vocabulary : Vocabulary) (name : String) (operation : Operation) : Vocabulary where
  entries := ⟨name, operation⟩ ::
    vocabulary.entries.filter (·.key != Entry.key ⟨name, operation⟩)
  distinct := List.pairwise_cons.2
    ⟨fun e he => Ne.symm (by simpa using (List.mem_filter.1 he).2), vocabulary.distinct.filter _⟩

/-- The commands that are known unless others are registered. -/
def standard : Vocabulary :=
  ((empty.register "get" .get).register "set" .set).register "del" .del

/-- The command that the first argument of a request names. -/
def lookup (vocabulary : Vocabulary) (name : Bytes) : Option Entry :=
  vocabulary.entries.find? (·.key == name.toLower)

/-- The number of registered commands. -/
def size (vocabulary : Vocabulary) : Nat :=
  vocabulary.entries.length

/-- Whether no command is registered. -/
def isEmpty (vocabulary : Vocabulary) : Bool :=
  vocabulary.entries.isEmpty

/-- The case of the ASCII letters in a name makes no difference. -/
theorem lookup_congr (vocabulary : Vocabulary) {a b : Bytes} (h : a.toLower = b.toLower) :
    vocabulary.lookup a = vocabulary.lookup b := by
  simp only [lookup, h]

end Vocabulary

end LogStore
