import LogStore.Request.Frame

/-!
# Multibulk requests

A multibulk request is `*`, a count and the line end, then that many bulk strings: `$`, a length,
the line end, as many bytes as the length says, whatever they are, and the line end again. A count
that is not positive announces no bulk strings, and the request is over with its first line. Counts
and lengths are exact numbers and are held against the limits as such.
-/

namespace LogStore.Multibulk

/-- The most bulk strings in one request. -/
def maxCount : Nat := 1024 * 1024

/-- The most bytes in one bulk string. -/
def maxLength : Nat := 512 * 1024 * 1024

/-- The least count that a header may give. -/
def minCount : Int := -0x8000000000000000

/-- The count in a header line, behind the `*`. A count below zero counts as zero. -/
def readCount? (line : Bytes) : Option Nat := do
  let count ← Numeral.readSigned? (← chopReturn? line)
  guard (minCount ≤ count ∧ count ≤ maxCount)
  return count.toNat

/-- The length in a header line, behind the `$`. -/
def readLength? (line : Bytes) : Option Nat := do
  let length ← Numeral.readUnsigned? (← chopReturn? line)
  guard (length ≤ maxLength)
  return length

/-- The bulk string at the head of the bytes, the first of which has position `position`: the place
of its payload, and the bytes behind its line end. -/
def scanBulk (position : Nat) : Bytes → Scan (Span × Bytes)
  | [] => .incomplete
  | b :: header =>
    if b = Byte.dollar then
      match scanLine .badLength header with
      | .incomplete => .incomplete
      | .malformed fault => .malformed fault
      | .found (line, payload) =>
        match readLength? line with
        | none => .malformed .badLength
        | some length =>
          match payload.drop length with
          | c :: l :: rest =>
            if c = Byte.carriageReturn ∧ l = Byte.lineFeed then
              let start := position + line.length + 2
              .found (⟨start, start + length⟩, rest)
            else .malformed .badTerminator
          | _ => .incomplete
    else .malformed (.notBulk (Char.ofNat b.toNat))

/-- Reads `count` further bulk strings; `payloads` are the places of those read before, latest
first. -/
def scanBulks : (count position : Nat) → (payloads : List Span) → Bytes → Scan Frame
  | 0, position, payloads, _ => .found ⟨position, payloads.reverse, .multibulk⟩
  | count + 1, position, payloads, bytes =>
    match scanBulk position bytes with
    | .incomplete => .incomplete
    | .malformed fault => .malformed fault
    | .found (payload, rest) => scanBulks count (payload.stop + 2) (payload :: payloads) rest

/-- The request whose first byte, the `*`, has been read. -/
def scan (bytes : Bytes) : Scan Frame :=
  match scanLine .badCount bytes with
  | .incomplete => .incomplete
  | .malformed fault => .malformed fault
  | .found (line, rest) =>
    match readCount? line with
    | none => .malformed .badCount
    | some count => scanBulks count (line.length + 2) [] rest

/-- A bulk string ends behind the position at which it begins. -/
theorem lt_stop_of_scanBulk {position : Nat} {bytes rest : Bytes} {payload : Span}
    (h : scanBulk position bytes = .found (payload, rest)) : position < payload.stop := by
  unfold scanBulk at h
  split at h <;> try contradiction
  split at h <;> try contradiction
  split at h <;> try contradiction
  split at h <;> try contradiction
  split at h <;> try contradiction
  split at h <;> try contradiction
  cases h
  simp only
  omega

theorem le_length_of_scanBulks {count position : Nat} {payloads : List Span} {bytes : Bytes}
    {frame : Frame} (h : scanBulks count position payloads bytes = .found frame) :
    position ≤ frame.length := by
  induction count generalizing position payloads bytes with
  | zero => cases h; exact Nat.le_refl _
  | succ count ih =>
    unfold scanBulks at h
    split at h <;> try contradiction
    have := ih h
    have := lt_stop_of_scanBulk ‹_›
    omega

theorem length_pos_of_scan {bytes : Bytes} {frame : Frame} (h : scan bytes = .found frame) :
    0 < frame.length := by
  unfold scan at h
  split at h <;> try contradiction
  split at h <;> try contradiction
  have := le_length_of_scanBulks h
  omega

end LogStore.Multibulk
