import LogStore.Text.Utf8

/-!
# Control sequences

A terminal does not show all that it is sent: a control sequence moves the cursor, changes a colour
or sets a title. A message that repeats what somebody else wrote must not let such sequences
through. `Control.strip` leaves out what a terminal would obey, together with all control characters
but the blanks, and keeps what it would show.

The terminal is a machine that takes one byte at a time. Most sequences begin with the escape
character and end with a letter; those that carry a text of their own end with a bell or with the
byte 9C. Cancelling a sequence ends it anywhere.
-/

namespace LogStore.Control

/-- The byte that begins a sequence. -/
def escape : Byte := 0x1B

/-- The bytes that cancel a sequence. -/
def cancels (b : Byte) : Bool :=
  b == 0x18 || b == 0x1A

/-- Tab, line feed, form feed and carriage return, which are shown even inside a sequence. -/
def isBlank (b : Byte) : Bool :=
  b == 9 || b == 10 || b == 12 || b == 13

/-- Printable ASCII. -/
def isGraphic (b : Byte) : Bool :=
  0x20 ≤ b && b ≤ 0x7E

/-- The bytes that begin a longer character. -/
def isLead (b : Byte) : Bool :=
  0xC2 ≤ b && b ≤ 0xF4

/-- The bytes that go on with a longer character. -/
def isContinuation (b : Byte) : Bool :=
  0x80 ≤ b && b ≤ 0xBF

/-- Where a terminal stands in what it is sent. -/
inductive Place where
  /-- Behind a byte that was shown. -/
  | text
  /-- Outside of all sequences, behind a byte that was not shown. -/
  | gap
  /-- Behind the escape character. -/
  | escape
  /-- Behind the escape character and a byte from `20` to `2F`. -/
  | selection
  /-- In a control sequence, begun with `[`. -/
  | sequence
  /-- In a command to the system, begun with `]`, which has a text. -/
  | command
  /-- At the beginning of a string to the device, begun with `P`. -/
  | device
  /-- In the numbers at the beginning of a string to the device. -/
  | deviceNumbers
  /-- Behind these numbers and a byte from `20` to `2F`. -/
  | deviceSelection
  /-- In the text of a string that is not for the screen. -/
  | string
  deriving DecidableEq, Repr

/-- The place behind a byte that no rule for all places covers, and whether the byte is shown. -/
def Place.advance (place : Place) (b : Byte) : Place × Bool :=
  let unshown (next : Place) : Place × Bool := (next, false)
  let isSelector : Bool := 0x20 ≤ b && b ≤ 0x2F
  let isFinal : Bool := 0x30 ≤ b && b ≤ 0x7E
  match place with
  | .text =>
    if isGraphic b || isBlank b || isLead b || isContinuation b then (.text, true) else unshown .gap
  | .gap => if isGraphic b || isBlank b || isLead b then (.text, true) else unshown .gap
  | .escape =>
    if isBlank b then (.text, true)
    else if isSelector then unshown .selection
    else if b == 0x5B then unshown .sequence
    else if b == 0x5D then unshown .command
    else if b == 0x50 then unshown .device
    else if b == 0x58 || b == 0x5E || b == 0x5F then unshown .string
    else if isFinal then unshown .gap
    else unshown .escape
  | .selection =>
    if isBlank b then (.text, true) else if isFinal then unshown .gap else unshown .selection
  | .sequence =>
    if isBlank b then (.text, true)
    else if 0x40 ≤ b && b ≤ 0x7E then unshown .gap
    else unshown .sequence
  | .command => if b == 0x07 then unshown .gap else unshown .command
  | .device =>
    if isSelector then unshown .deviceSelection
    else if 0x30 ≤ b && b ≤ 0x3F then unshown .deviceNumbers
    else if isFinal then unshown .string
    else unshown .device
  | .deviceNumbers =>
    if isSelector then unshown .deviceSelection
    else if 0x3C ≤ b && b ≤ 0x7E then unshown .string
    else unshown .deviceNumbers
  | .deviceSelection => if isFinal then unshown .string else unshown .deviceSelection
  | .string => if b == 0x9C then unshown .gap else unshown .string

/-- The place behind a byte, and whether the byte is shown. -/
def Place.step (place : Place) (b : Byte) : Place × Bool :=
  if b == Control.escape then (.escape, false)
  else if cancels b then (.gap, false)
  else place.advance b

/-- The bytes that are shown from a place on. -/
def shown (place : Place) : Bytes → Bytes
  | [] => []
  | b :: rest =>
    let (next, isShown) := place.step b
    if isShown then b :: shown next rest else shown next rest

/-- A text without its control sequences. -/
def strip (text : String) : String :=
  Utf8.decodeLossy (shown .gap (Utf8.encode text))

example : strip "a\x1b[31mred\x1b[0m\x07 z" = "ared z" := by decide +kernel

example : strip "\x1b]0;title\x07é\x7f日\x1b(B" = "é日" := by decide +kernel

end LogStore.Control
