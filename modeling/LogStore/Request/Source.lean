import LogStore.Bytes

/-!
# Byte sources

A source answers each attempt to read from it. It is given by its answers in order; behind the last
of them it has ended. An answer without bytes also reports the end, although a source may go on
afterwards.
-/

namespace LogStore

/-- The answer to one attempt to read. -/
inductive Delivery where
  /-- These bytes have arrived; none means that the source has ended. -/
  | data (bytes : Bytes)
  /-- The attempt has failed. -/
  | failure (message : String)
  deriving DecidableEq, Repr

/-- What a source answers, attempt by attempt. -/
abbrev Source := List Delivery

/-- The report that a source has ended. -/
abbrev Delivery.ended : Delivery := .data []

/-- The bytes that a delivery brings. -/
def Delivery.bytes : Delivery → Bytes
  | .data bytes => bytes
  | .failure _ => []

namespace Source

/-- The number of bytes for which a reader has room at least when it asks for more. -/
def chunkSize : Nat := 16 * 1024

/-- A source that brings the given bytes, at most `chunkSize` of them at a time, and then ends. -/
def ofBytes (bytes : Bytes) : Source :=
  (bytes.toPieces chunkSize).map .data

/-- All bytes that a source still brings. -/
def bytes (source : Source) : Bytes :=
  source.flatMap Delivery.bytes

@[simp]
theorem bytes_nil : bytes [] = [] := rfl

@[simp]
theorem bytes_cons (d : Delivery) (source : Source) :
    bytes (d :: source) = d.bytes ++ bytes source := by
  simp [bytes]

theorem bytes_map_data (pieces : List Bytes) : bytes (pieces.map .data) = pieces.flatten := by
  rw [bytes, List.flatMap_map]
  exact List.flatMap_id'

@[simp]
theorem bytes_ofBytes (b : Bytes) : bytes (ofBytes b) = b :=
  (bytes_map_data _).trans (Bytes.flatten_toPieces _ b)

end Source

end LogStore
