import LogStore.Request.Frame

/-!
# Inline requests

An inline request is a line of words. Words are separated by spaces; a word between double quotes
may hold spaces and may be empty. A quote may open a word only where a word may begin, and a closing
quote ends its word. `splitWords` reads the line byte by byte and keeps only its `Place` in it.
-/

namespace LogStore.Inline

/-- Where the splitter stands in a line. -/
inductive Place where
  /-- Where a word may begin. -/
  | gap
  /-- In a bare word that began at position `start`. -/
  | bare (start : Nat)
  /-- Between quotes, in a word whose content began at position `start`. -/
  | quoted (start : Nat)
  /-- Right behind a closing quote. -/
  | closed
  deriving DecidableEq, Repr

/-- Reads on from `place` at position `position`; `words` are the words that have ended, latest
first. -/
def splitFrom (place : Place) (position : Nat) (words : List Span) :
    Bytes → Except Fault (List Span)
  | [] =>
    match place with
    | .gap | .closed => .ok words.reverse
    | .bare start => .ok (⟨start, position⟩ :: words).reverse
    | .quoted _ => .error .unbalancedQuotes
  | b :: rest =>
    match place with
    | .gap =>
      if b = Byte.space then splitFrom .gap (position + 1) words rest
      else if b = Byte.quote then splitFrom (.quoted (position + 1)) (position + 1) words rest
      else splitFrom (.bare position) (position + 1) words rest
    | .bare start =>
      if b = Byte.space then splitFrom .gap (position + 1) (⟨start, position⟩ :: words) rest
      else if b = Byte.quote then .error .unbalancedQuotes
      else splitFrom (.bare start) (position + 1) words rest
    | .quoted start =>
      if b = Byte.quote then splitFrom .closed (position + 1) (⟨start, position⟩ :: words) rest
      else splitFrom (.quoted start) (position + 1) words rest
    | .closed =>
      if b = Byte.space then splitFrom .gap (position + 1) words rest
      else .error .unbalancedQuotes

/-- The places of the words of a line. -/
def splitWords (line : Bytes) : Except Fault (List Span) :=
  splitFrom .gap 0 [] line

/-- The inline request at the head of the bytes. A carriage return before the line feed belongs to
the line end, and one further inside to a word. -/
def scan (bytes : Bytes) : Scan Frame :=
  match scanLine .lineTooLong bytes with
  | .incomplete => .incomplete
  | .malformed fault => .malformed fault
  | .found (line, _) =>
    match splitWords ((chopReturn? line).getD line) with
    | .error fault => .malformed fault
    | .ok words => .found ⟨line.length + 1, words, .inline⟩

theorem length_pos_of_scan {bytes : Bytes} {frame : Frame} (h : scan bytes = .found frame) :
    0 < frame.length := by
  unfold scan at h
  split at h <;> try contradiction
  split at h <;> try contradiction
  cases h
  exact Nat.succ_pos _

end LogStore.Inline
