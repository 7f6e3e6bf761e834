import LogStore.Numeral
import LogStore.Text.Utf8

/-!
# Replies

What a client gets back. A reply is one of six kinds of value, and `Reply.encode` gives its form on
the wire: a first byte for the kind, a line, and for bulk strings and arrays what the line
announces. The texts of simple and error replies are written as they are, so a text that holds a
line end breaks its own reply in two; bulk strings may hold any bytes.
-/

namespace LogStore

/-- A reply to a client. -/
inductive Reply where
  /-- A short text that reports success. -/
  | simple (text : String)
  /-- A text that reports a failure. -/
  | error (text : String)
  /-- A number. -/
  | integer (value : Int)
  /-- A string of any bytes. -/
  | bulk (bytes : Bytes)
  /-- The absence of a string. -/
  | null
  /-- A sequence of replies. -/
  | array (elements : List Reply)
  deriving Repr

namespace Reply

/-- A line: its first byte, its content and the line end. -/
def line (kind : Byte) (content : Bytes) : Bytes :=
  kind :: content ++ Bytes.lineEnd

mutual

/-- The form of a reply on the wire. -/
def encode : Reply → Bytes
  | .simple text => line Byte.plus (Utf8.encode text)
  | .error text => line Byte.minus (Utf8.encode text)
  | .integer value => line 58 (Numeral.ofInt value)
  | .bulk bytes => line Byte.dollar (Numeral.ofNat bytes.length) ++ bytes ++ Bytes.lineEnd
  | .null => line Byte.dollar (Numeral.ofInt (-1))
  | .array elements => line Byte.star (Numeral.ofNat elements.length) ++ encodeAll elements

/-- The replies of a list, one behind the other. -/
def encodeAll : List Reply → Bytes
  | [] => []
  | reply :: replies => encode reply ++ encodeAll replies

end

theorem encode_ne_nil (reply : Reply) : reply.encode ≠ [] := by
  cases reply <;> simp [encode, line]

/-- The failure reply for a message. -/
def failure (message : String) : Reply :=
  .error ("ERR " ++ message)

end Reply

end LogStore
