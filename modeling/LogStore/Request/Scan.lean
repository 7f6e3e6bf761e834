import LogStore.Request.Fault

/-!
# Looking at received bytes

A request arrives in pieces, so the bytes at hand may hold only part of what is expected at their
head. `Scan` keeps the three answers apart: the bytes do not tell yet, they hold it, or they can
never become it. Everything that is read by lines is read by `scanLine`, which gives up on a line
once more than `maxLineLength` bytes of it have come without a line feed.
-/

namespace LogStore

/-- What the bytes at hand say about a thing expected at their head. -/
inductive Scan (α : Type) where
  /-- More bytes are needed to tell. -/
  | incomplete
  /-- The thing is there. -/
  | found (value : α)
  /-- No further bytes can make it appear. -/
  | malformed (fault : Fault)
  deriving DecidableEq, Repr

/-- The most bytes that may wait for a line feed. -/
def maxLineLength : Nat := 64 * 1024

/-- The bytes before the first line feed and the bytes behind it. -/
def splitLine? (bytes : Bytes) : Option (Bytes × Bytes) :=
  match bytes.dropWhile (· != Byte.lineFeed) with
  | [] => none
  | _ :: rest => some (bytes.takeWhile (· != Byte.lineFeed), rest)

/-- The line at the head of the bytes, without its line feed, and what follows it. The limit counts
only for a line that has not ended. -/
def scanLine (tooLong : Fault) (bytes : Bytes) : Scan (Bytes × Bytes) :=
  match splitLine? bytes with
  | some (line, rest) => .found (line, rest)
  | none => if maxLineLength < bytes.length then .malformed tooLong else .incomplete

/-- The bytes of a line without the carriage return that ends it, if one does. -/
def chopReturn? (line : Bytes) : Option Bytes :=
  if line.getLast? = some Byte.carriageReturn then some line.dropLast else none

/-! ## The line that is found -/

theorem splitLine?_eq_none {bytes : Bytes} (h : Byte.lineFeed ∉ bytes) :
    splitLine? bytes = none := by
  have : bytes.dropWhile (· != Byte.lineFeed) = [] := by
    induction bytes with
    | nil => rfl
    | cons b rest ih =>
      obtain ⟨hb, hrest⟩ := not_or.1 (mt List.mem_cons.2 h)
      simp [Ne.symm hb, ih hrest]
  simp [splitLine?, this]

theorem splitLine?_append {line rest : Bytes} (h : Byte.lineFeed ∉ line) :
    splitLine? (line ++ Byte.lineFeed :: rest) = some (line, rest) := by
  have hline : ∀ b ∈ line, (b != Byte.lineFeed) = true := fun b hb =>
    bne_iff_ne.2 fun e => h (e ▸ hb)
  simp [splitLine?, List.dropWhile_append_of_pos hline, List.takeWhile_append_of_pos hline]

/-- Either no line has ended, or the bytes are its content, a line feed and the rest. -/
theorem splitLine?_cases (bytes : Bytes) :
    (Byte.lineFeed ∉ bytes ∧ splitLine? bytes = none) ∨
      ∃ line rest, Byte.lineFeed ∉ line ∧ bytes = line ++ Byte.lineFeed :: rest ∧
        splitLine? bytes = some (line, rest) := by
  by_cases h : Byte.lineFeed ∈ bytes
  · obtain ⟨line, rest, rfl, hline⟩ := List.eq_append_cons_of_mem h
    exact .inr ⟨line, rest, hline, rfl, splitLine?_append hline⟩
  · exact .inl ⟨h, splitLine?_eq_none h⟩

end LogStore
