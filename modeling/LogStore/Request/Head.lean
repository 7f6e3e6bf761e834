import LogStore.Request.Inline
import LogStore.Request.Multibulk

/-!
# The request at the head of a buffer

The first byte tells the two forms of a request apart: `*` begins a multibulk request, and anything
else is the first byte of an inline one. `Frame.scan` always looks from the head, so its answer
depends on the bytes of the buffer alone.
-/

namespace LogStore

/-- The request at the head of the bytes. -/
def Frame.scan : Bytes → Scan Frame
  | [] => .incomplete
  | b :: rest => if b = Byte.star then Multibulk.scan rest else Inline.scan (b :: rest)

namespace Frame

/-- A request takes at least one byte. -/
theorem length_pos_of_scan {bytes : Bytes} {frame : Frame} (h : scan bytes = .found frame) :
    0 < frame.length := by
  unfold scan at h
  split at h <;> try contradiction
  split at h
  · exact Multibulk.length_pos_of_scan h
  · exact Inline.length_pos_of_scan h

/-- What is left behind a request is shorter than the buffer. -/
theorem length_drop_lt {bytes : Bytes} {frame : Frame} (h : scan bytes = .found frame) :
    (bytes.drop frame.length).length < bytes.length := by
  have hpos := length_pos_of_scan h
  have hne : bytes ≠ [] := by rintro rfl; cases h
  have := List.length_pos_iff.2 hne
  rw [List.length_drop]
  omega

end Frame

end LogStore
