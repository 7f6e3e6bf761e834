/-!
# Bytes

Requests, replies, keys, values and the log are all sequences of bytes. The wire format gives a
meaning to a few of them only, and those are named here. The letters of a command name are compared
without regard to case; `Byte.toLower` folds the 26 ASCII letters and fixes every other byte, so
that folding never touches the bytes of a non-ASCII character.
-/

namespace LogStore

/-- One byte of the wire or of the log. -/
abbrev Byte := UInt8

/-- A sequence of bytes. -/
abbrev Bytes := List Byte

namespace Byte

/-- Line feed, the byte that ends every line. -/
abbrev lineFeed : Byte := 10

/-- Carriage return, the byte before the line feed of a well formed header. -/
abbrev carriageReturn : Byte := 13

/-- The space that separates the words of an inline request. -/
abbrev space : Byte := 32

/-- The double quote around a word of an inline request. -/
abbrev quote : Byte := 34

/-- The first byte of a bulk string, `$`. -/
abbrev dollar : Byte := 36

/-- The first byte of a multibulk request, `*`. -/
abbrev star : Byte := 42

/-- The sign `+`. -/
abbrev plus : Byte := 43

/-- The sign `-`. -/
abbrev minus : Byte := 45

/-- The ASCII letters `A` to `Z` become `a` to `z`; every other byte stays. -/
def toLower (b : Byte) : Byte :=
  if 65 ≤ b ∧ b ≤ 90 then b + 32 else b

end Byte

namespace Bytes

/-- The two bytes that end a header, a payload and a reply. -/
abbrev lineEnd : Bytes := [Byte.carriageReturn, Byte.lineFeed]

/-- Folds the ASCII letters of a name to lower case. -/
def toLower (bytes : Bytes) : Bytes :=
  bytes.map Byte.toLower

@[simp]
theorem toLower_append (a b : Bytes) : toLower (a ++ b) = toLower a ++ toLower b :=
  List.map_append

/-- Cuts bytes into consecutive pieces of `size` bytes, or of one byte where `size` is zero. The
last piece takes what is left. -/
def toPieces (size : Nat) (bytes : Bytes) : List Bytes :=
  if bytes = [] then []
  else bytes.take (max size 1) :: toPieces size (bytes.drop (max size 1))
termination_by bytes.length
decreasing_by
  rename_i h
  have := List.length_pos_iff.2 h
  simp only [List.length_drop]
  omega

/-- Cutting into pieces loses nothing. -/
theorem flatten_toPieces (size : Nat) (bytes : Bytes) : (toPieces size bytes).flatten = bytes := by
  fun_induction toPieces size bytes with
  | case1 => rfl
  | case2 bytes _ ih => rw [List.flatten_cons, ih, List.take_append_drop]

end Bytes

end LogStore
