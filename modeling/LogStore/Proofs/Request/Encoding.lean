import LogStore.Proofs.Reply.Numeral
import LogStore.Proofs.Request.Locality

/-!
# Written requests are read back

A client writes a request as an array of bulk strings, in the form in which arrays are also sent as
replies. The scanner finds in it the arguments that were written, whatever bytes they hold and
whatever follows the request (`Frame.exists_scan_encode_array`): it goes by the lengths, so it never
looks into an argument, and the numerals in the headers are read as the numbers they were written
for.
-/

namespace LogStore

open Reply (encode encodeAll)

namespace Multibulk

/-! ## Headers -/

/-- The line of a number, behind the first byte of a header. -/
def numberLine (n : Nat) : Bytes :=
  Numeral.ofNat n ++ [Byte.carriageReturn]

theorem lineFeed_notMem_numberLine (n : Nat) : Byte.lineFeed ∉ numberLine n := by
  intro h
  rcases List.mem_append.1 h with h | h
  · exact Numeral.notMem_ofNat (by decide) n h
  · exact absurd (List.mem_singleton.1 h) (by decide)

theorem readCount?_numberLine {count : Nat} (h : count ≤ maxCount) :
    readCount? (numberLine count) = some count := by
  have hleast : minCount ≤ (count : Int) := by
    rw [minCount]
    omega
  have hmost : (count : Int) ≤ maxCount := Int.ofNat_le.2 h
  have hguard : guard (minCount ≤ (count : Int) ∧ (count : Int) ≤ maxCount) = some () :=
    if_pos ⟨hleast, hmost⟩
  rw [readCount?, numberLine, chopReturn?_append]
  show (Numeral.readSigned? (Numeral.ofNat count)).bind _ = _
  rw [Numeral.readSigned?_ofNat]
  exact congrArg (Option.bind · fun _ => some count) hguard

theorem readLength?_numberLine {length : Nat} (h : length ≤ maxLength) :
    readLength? (numberLine length) = some length := by
  have hguard : guard (length ≤ maxLength) = some () := if_pos h
  rw [readLength?, numberLine, chopReturn?_append]
  show (Numeral.readUnsigned? (Numeral.ofNat length)).bind _ = _
  rw [Numeral.readUnsigned?_ofNat]
  exact congrArg (Option.bind · fun _ => some length) hguard

/-- The first line of a request with `count` arguments. -/
def header (count : Nat) : Bytes :=
  Byte.star :: numberLine count ++ [Byte.lineFeed]

/-- Behind a header, as many bulk strings are read as it says. -/
theorem scan_header_append {count : Nat} (h : count ≤ maxCount) (bulks : Bytes) :
    Frame.scan (header count ++ bulks) = scanBulks count (header count).length [] bulks := by
  have hline : scanLine .badCount (numberLine count ++ Byte.lineFeed :: bulks) =
      .found (numberLine count, bulks) :=
    scanLine_eq_found_iff.2 ⟨lineFeed_notMem_numberLine count, rfl⟩
  have hheader : header count ++ bulks =
      Byte.star :: (numberLine count ++ Byte.lineFeed :: bulks) := by
    simp [header]
  have hlength : (header count).length = (numberLine count).length + 2 := by simp [header]
  rw [hheader, hlength, Frame.scan, if_pos rfl]
  simp only [scan, hline, readCount?_numberLine h]

theorem encode_array (elements : List Reply) :
    encode (.array elements) = header elements.length ++ encodeAll elements := by
  simp [encode, Reply.line, header, numberLine]

/-! ## Bulk strings -/

theorem encode_bulk (argument : Bytes) :
    encode (.bulk argument) = Byte.dollar :: numberLine argument.length ++
      Byte.lineFeed :: argument ++ Bytes.lineEnd := by
  simp [encode, Reply.line, numberLine]

/-- A written bulk string is found, and the span that is found cuts out its bytes. -/
theorem exists_scanBulk_encode {argument : Bytes} (h : argument.length ≤ maxLength)
    (before rest : Bytes) :
    ∃ payload, scanBulk before.length (encode (.bulk argument) ++ rest) = .found (payload, rest) ∧
      payload.stop + 2 = (before ++ encode (.bulk argument)).length ∧
      payload.slice (before ++ (encode (.bulk argument) ++ rest)) = argument := by
  have hline := lineFeed_notMem_numberLine argument.length
  have hlength := readLength?_numberLine h
  rw [encode_bulk]
  refine ⟨_, scanBulk_eq_found_iff.2 ⟨_, argument, hline, hlength, rfl, rfl⟩, ?_, ?_⟩
  · simp only [List.length_append, List.length_cons, List.length_nil]
    omega
  · have hbefore : before.length + (numberLine argument.length).length + 2 =
        (before ++ (Byte.dollar :: numberLine argument.length ++ [Byte.lineFeed])).length := by
      simp only [List.length_append, List.length_cons, List.length_nil]
      omega
    have hsplit : before ++ (Byte.dollar :: numberLine argument.length ++
          Byte.lineFeed :: argument ++ Bytes.lineEnd ++ rest) =
        before ++ (Byte.dollar :: numberLine argument.length ++ [Byte.lineFeed]) ++
          (argument ++ (Bytes.lineEnd ++ rest)) := by
      simp
    rw [hbefore, hsplit, Span.slice_append]

theorem exists_scanBulks_encodeAll {arguments : List Bytes}
    (h : ∀ argument ∈ arguments, argument.length ≤ maxLength) (before : Bytes)
    (payloads : List Span) (rest : Bytes) :
    ∃ spans : List Span,
      scanBulks arguments.length before.length payloads
          (encodeAll (arguments.map .bulk) ++ rest) =
        .found ⟨(before ++ encodeAll (arguments.map .bulk)).length, payloads.reverse ++ spans,
          .multibulk⟩ ∧
      spans.map (·.slice (before ++ (encodeAll (arguments.map .bulk) ++ rest))) = arguments := by
  -- `before` grows with the induction: spans are positions in the whole request, not in its rest.
  induction arguments generalizing before payloads with
  | nil => exact ⟨[], by simp [scanBulks, encodeAll], rfl⟩
  | cons argument arguments ih =>
    obtain ⟨hfirst, hothers⟩ := List.forall_mem_cons.1 h
    obtain ⟨payload, hscan, hstop, hslice⟩ := exists_scanBulk_encode hfirst before
      (encodeAll (arguments.map .bulk) ++ rest)
    obtain ⟨spans, hspans, hslices⟩ := ih hothers (before ++ encode (.bulk argument))
      (payload :: payloads)
    rw [List.map_cons, encodeAll, List.append_assoc]
    refine ⟨payload :: spans, ?_, ?_⟩
    · rw [List.length_cons, scanBulks, hscan]
      simp only [hstop, hspans, List.reverse_cons, List.append_assoc, List.singleton_append]
    · rw [List.map_cons, hslice, ← List.append_assoc before, hslices]

end Multibulk

/-- **What was written as a request is read as that request.** An array of bulk strings, with any
bytes in them and any bytes behind it, is found as a multibulk request that is as long as what was
written, and whose spans cut out the strings in order, as long as the array and the strings keep to
the limits. -/
theorem Frame.exists_scan_encode_array {arguments : List Bytes}
    (hcount : arguments.length ≤ Multibulk.maxCount)
    (hlength : ∀ argument ∈ arguments, argument.length ≤ Multibulk.maxLength) (rest : Bytes) :
    let bytes := encode (.array (arguments.map .bulk))
    ∃ frame, Frame.scan (bytes ++ rest) = .found frame ∧ frame.length = bytes.length ∧
      frame.framing = .multibulk ∧
      frame.arguments.map (·.slice (bytes ++ rest)) = arguments := by
  intro bytes
  have hbytes : bytes = Multibulk.header arguments.length ++ encodeAll (arguments.map .bulk) := by
    rw [← List.length_map (f := Reply.bulk), ← Multibulk.encode_array]
  obtain ⟨spans, hspans, hslices⟩ :=
    Multibulk.exists_scanBulks_encodeAll hlength (Multibulk.header arguments.length) [] rest
  rw [hbytes, List.append_assoc, Multibulk.scan_header_append hcount]
  exact ⟨_, hspans, rfl, rfl, hslices⟩

/-- A request with a line end, a header, a quote and nothing in its arguments, in front of bytes
that go on like one more argument. -/
theorem Frame.exists_scan_encode_array_headers :
    let arguments : List Bytes := ["set", "a\r\n$3\r\n", "", "*1\r\n\"\x00"].map Utf8.encode
    let bytes := encode (.array (arguments.map .bulk))
    let rest : Bytes := Utf8.encode "$1\r\nx\r\n"
    arguments.length ≤ Multibulk.maxCount ∧
      (∀ argument ∈ arguments, argument.length ≤ Multibulk.maxLength) ∧
      ∃ frame, Frame.scan (bytes ++ rest) = .found frame ∧ frame.length = bytes.length ∧
        frame.framing = .multibulk ∧
        frame.arguments.map (·.slice (bytes ++ rest)) = arguments := by
  intro arguments bytes rest
  have hcount : arguments.length ≤ Multibulk.maxCount := by decide +kernel
  have hlength : ∀ argument ∈ arguments, argument.length ≤ Multibulk.maxLength := by decide +kernel
  exact ⟨hcount, hlength, exists_scan_encode_array hcount hlength rest⟩

end LogStore
