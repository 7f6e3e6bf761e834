import LogStore.Request.Transcript

/-!
# Taking in what is ready

A file has its bytes ready, and so has a client who sends them all at once: they fill all the room
that their reader has. The reader keeps its bytes in one stretch of memory, and requests leave from
the front of it. When there is no room for another chunk behind the bytes that are held, they are
moved to the front, if at least as many have left before and that makes room enough; otherwise the
stretch grows to at least twice its size.

The room decides how the bytes are cut, and so whether a long line has ended when the reader looks
at it. `Source.ofReady` gives the cut. Whatever it is, nothing is lost and no piece is empty.
-/

namespace LogStore

/-- A reader with the room that it keeps for bytes. -/
structure Intake where
  /-- The reader. -/
  reader : Reader := {}
  /-- The number of bytes there is room for in all. -/
  capacity : Nat := 0
  /-- The number of bytes at the front that were handed out. -/
  spent : Nat := 0

namespace Intake

/-- The most bytes that are taken at a time. -/
def maxDelivery : Nat := 2 * 1024 * 1024

/-- The number of bytes that are held for requests to come. -/
def held (intake : Intake) : Nat :=
  intake.reader.buffer.length

/-- Makes room for a chunk. -/
def makeRoom (intake : Intake) : Intake :=
  let needed := Source.chunkSize + intake.held
  if needed + intake.spent ≤ intake.capacity then intake
  else if intake.held ≤ intake.spent ∧ needed ≤ intake.capacity then { intake with spent := 0 }
  else { intake with capacity := max (2 * intake.capacity) (needed + intake.spent) }

/-- The number of bytes that are taken next. -/
def free (intake : Intake) : Nat :=
  min maxDelivery (intake.capacity - (intake.spent + intake.held))

/-- Takes in bytes and hands out the requests that they complete. There is no going on when they
turn out not to be requests. -/
def accept (intake : Intake) (bytes : Bytes) : Option Intake :=
  let transcript := intake.reader.readAll [.data bytes]
  match transcript.outcome with
  | .error (.malformed _) => none
  | _ =>
    let handedOut := intake.held + bytes.length - transcript.reader.buffer.length
    some { intake with reader := transcript.reader, spent := intake.spent + handedOut }

/-- There is room for a chunk once it was made. -/
theorem chunkSize_le_free_makeRoom (intake : Intake) :
    Source.chunkSize ≤ intake.makeRoom.free := by
  have hchunk : Source.chunkSize ≤ maxDelivery := by decide
  unfold makeRoom
  simp only
  split
  · simp only [free]
    omega
  · split
    · simp only [free, held] at *
      omega
    · simp only [free, held] at *
      omega

theorem free_makeRoom_pos (intake : Intake) : 0 < intake.makeRoom.free :=
  Nat.lt_of_lt_of_le (by decide) intake.chunkSize_le_free_makeRoom

theorem length_drop_lt (intake : Intake) {bytes : Bytes} (h : bytes ≠ []) :
    (bytes.drop intake.makeRoom.free).length < bytes.length := by
  have := List.length_pos_iff.2 h
  have := intake.free_makeRoom_pos
  rw [List.length_drop]
  omega

/-- The pieces in which the given bytes are taken in. What stands behind bytes that are no requests
is not asked for, and counts as one piece. -/
def pieces (intake : Intake) (bytes : Bytes) : List Bytes :=
  if bytes = [] then []
  else
    let free := intake.makeRoom.free
    let rest := bytes.drop free
    bytes.take free ::
      match intake.makeRoom.accept (bytes.take free) with
      | some next => next.pieces rest
      | none => if rest = [] then [] else [rest]
termination_by bytes.length
decreasing_by exact intake.length_drop_lt ‹_›

/-- Nothing is lost. -/
theorem flatten_pieces (intake : Intake) (bytes : Bytes) :
    (intake.pieces bytes).flatten = bytes := by
  fun_induction pieces intake bytes with
  | case1 => rfl
  | case2 intake bytes _ free rest ih =>
    have htail : ((match intake.makeRoom.accept (bytes.take free) with
      | some next => next.pieces rest
      | none => if rest = [] then [] else [rest]) : List Bytes).flatten = rest := by
      split
      · exact ih _
      · split
        · exact Eq.symm ‹rest = []›
        · exact List.flatten_singleton
    rw [List.flatten_cons, htail, List.take_append_drop]

/-- No piece is empty. -/
theorem ne_nil_of_mem_pieces {intake : Intake} {bytes piece : Bytes}
    (h : piece ∈ intake.pieces bytes) : piece ≠ [] := by
  fun_induction pieces intake bytes with
  | case1 => cases h
  | case2 intake bytes hbytes free rest ih =>
    rcases List.mem_cons.1 h with rfl | h
    · have : free ≠ 0 := Nat.ne_of_gt intake.free_makeRoom_pos
      simp [List.take_eq_nil_iff, hbytes, this]
    · split at h
      · exact ih _ h
      · split at h
        · cases h
        · rwa [List.mem_singleton.1 h]

end Intake

/-- A source that has the given bytes ready, read by a fresh reader. -/
def Source.ofReady (bytes : Bytes) : Source :=
  (Intake.pieces {} bytes).map .data

@[simp]
theorem Source.bytes_ofReady (b : Bytes) : (ofReady b).bytes = b :=
  (bytes_map_data _).trans (Intake.flatten_pieces _ b)

end LogStore
