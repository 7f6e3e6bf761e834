import LogStore.Bytes

/-!
# UTF-8

Text reaches the wire as UTF-8, and bytes that may or may not be text are shown as text. The decoder
is a machine that takes one byte at a time. Between characters it is `idle`; inside one it knows how
many continuation bytes are due, in which range the next one must lie, and the bits seen so far. The
ranges leave out overlong forms, surrogates and everything above U+10FFFF. A byte out of range ends
the broken sequence, which counts as one unreadable unit, and is then looked at afresh.
-/

namespace LogStore.Utf8

/-- The UTF-8 bytes of a text. -/
def encode (text : String) : Bytes :=
  text.toList.flatMap String.utf8EncodeChar

/-- Where the decoder stands in a character. -/
inductive State where
  /-- Between characters. -/
  | idle
  /-- `due + 1` continuation bytes are missing, the next of them from `low` to `high`; `code` holds
  the bits read so far. -/
  | inside (due : Nat) (low high : Byte) (code : Nat)
  deriving DecidableEq, Repr

/-- One byte between characters: the state after it, and the unit it completes, where `none` stands
for a byte that starts no character. -/
def start (b : Byte) : State × List (Option Char) :=
  let n := b.toNat
  if b < 0x80 then (.idle, [some (Char.ofNat n)])
  else if b < 0xC2 then (.idle, [none])
  else if b < 0xE0 then (.inside 0 0x80 0xBF (n - 0xC0), [])
  else if b = 0xE0 then (.inside 1 0xA0 0xBF 0, [])
  else if b = 0xED then (.inside 1 0x80 0x9F (n - 0xE0), [])
  else if b < 0xF0 then (.inside 1 0x80 0xBF (n - 0xE0), [])
  else if b = 0xF0 then (.inside 2 0x90 0xBF 0, [])
  else if b < 0xF4 then (.inside 2 0x80 0xBF (n - 0xF0), [])
  else if b = 0xF4 then (.inside 2 0x80 0x8F (n - 0xF0), [])
  else (.idle, [none])

/-- One byte in any state: the state after it and the units it completes. -/
def step : State → Byte → State × List (Option Char)
  | .idle, b => start b
  | .inside due low high code, b =>
    if low ≤ b ∧ b ≤ high then
      let code := 64 * code + (b.toNat - 0x80)
      match due with
      | 0 => (.idle, [some (Char.ofNat code)])
      | due + 1 => (.inside due 0x80 0xBF code, [])
    else
      let (next, units) := start b
      (next, none :: units)

/-- The units that remain to be reported when the bytes end. -/
def State.finish : State → List (Option Char)
  | .idle => []
  | .inside .. => [none]

/-- Feeds bytes to the machine; `units` are those reported before, latest first. -/
def run : State → List (Option Char) → Bytes → List (Option Char)
  | state, units, [] => (state.finish ++ units).reverse
  | state, units, b :: rest =>
    let (next, more) := step state b
    run next (more.reverse ++ units) rest

/-- The bytes as characters, with one `none` for each maximal beginning of a broken sequence. -/
def units (bytes : Bytes) : List (Option Char) :=
  run .idle [] bytes

/-- The text whose UTF-8 form is `bytes`, if there is one. -/
def decode? (bytes : Bytes) : Option String :=
  let characters := units bytes
  if characters.all Option.isSome then some (String.ofList (characters.filterMap id)) else none

/-- The bytes as text, with U+FFFD in the place of each unreadable unit. -/
def decodeLossy (bytes : Bytes) : String :=
  String.ofList ((units bytes).map (·.getD '\uFFFD'))

example : decodeLossy [0x61, 0xE2, 0x82, 0x62, 0xF0, 0x90] = "a\uFFFDb\uFFFD" := by decide +kernel

example : decode? [0xC3, 0xA9] = some "é" ∧ decode? [0xED, 0xA0, 0x80] = none := by decide +kernel

end LogStore.Utf8
