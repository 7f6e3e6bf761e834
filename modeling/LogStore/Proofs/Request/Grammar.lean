import LogStore.Proofs.Request.Locality
import LogStore.Proofs.Request.Numerals

/-!
# The form of a multibulk request

A multibulk request is written as a header and bulk strings. `Multibulk.Draft` is one of which the
header stands and some of the bulk strings, possibly all; it holds the numerals as they were chosen,
since a number may be written in many ways. What the scanner has read of a request is a draft at
every moment (`Multibulk.scan_draft_append`), so it finds a request exactly where a finished draft
stands, and then the places it gives are those of the payloads
(`Multibulk.scan_eq_found_iff_finished`).
-/

namespace LogStore.Multibulk

/-! ## Headers -/

theorem chopReturn?_eq_some_iff {line content : Bytes} :
    chopReturn? line = some content ↔ line = content ++ [Byte.carriageReturn] := by
  constructor
  · intro h
    unfold chopReturn? at h
    split at h
    · rename_i hlast
      obtain ⟨front, rfl⟩ := List.getLast?_eq_some_iff.1 hlast
      rw [List.dropLast_concat, Option.some.injEq] at h
      rw [h]
    · cases h
  · rintro rfl
    exact chopReturn?_append content

/-- A count is taken from a numeral in front of the carriage return, if it is within the limits. -/
theorem readCount?_eq_some_iff {line : Bytes} {n : Nat} :
    readCount? line = some n ↔
      ∃ numeral count, line = numeral ++ [Byte.carriageReturn] ∧ Numeral.Signed numeral count ∧
        (minCount ≤ count ∧ count ≤ maxCount) ∧ count.toNat = n := by
  simp only [readCount?, Option.bind_eq_bind, Option.bind_eq_some_iff, chopReturn?_eq_some_iff,
    Numeral.readSigned?_eq_some_iff, Option.guard_eq_some']
  constructor
  · rintro ⟨numeral, hline, count, hnumeral, _, hlimits, hn⟩
    exact ⟨numeral, count, hline, hnumeral, hlimits, Option.some.inj hn⟩
  · rintro ⟨numeral, count, hline, hnumeral, hlimits, rfl⟩
    exact ⟨numeral, hline, count, hnumeral, (), hlimits, rfl⟩

theorem readLength?_eq_some_iff {line : Bytes} {n : Nat} :
    readLength? line = some n ↔
      ∃ numeral, line = numeral ++ [Byte.carriageReturn] ∧ Numeral.Unsigned numeral n ∧
        n ≤ maxLength := by
  simp only [readLength?, Option.bind_eq_bind, Option.bind_eq_some_iff, chopReturn?_eq_some_iff,
    Numeral.readUnsigned?_eq_some_iff, Option.guard_eq_some']
  constructor
  · rintro ⟨numeral, hline, length, hnumeral, _, hlimit, hn⟩
    cases hn
    exact ⟨numeral, hline, hnumeral, hlimit⟩
  · rintro ⟨numeral, hline, hnumeral, hlimit⟩
    exact ⟨numeral, hline, n, hnumeral, (), hlimit, rfl⟩

/-- A value beyond the limits is refused, since no other value is read from the same numeral. -/
theorem readCount?_eq_none {numeral : Bytes} {count : Int} (h : Numeral.Signed numeral count)
    (hbeyond : count < minCount ∨ maxCount < count) :
    readCount? (numeral ++ [Byte.carriageReturn]) = none := by
  refine Option.eq_none_iff_forall_ne_some.2 fun n hread => ?_
  obtain ⟨other, value, hline, hother, hlimits, _⟩ := readCount?_eq_some_iff.1 hread
  cases List.append_cancel_right hline
  have hvalue : value = count := h.unique hother
  omega

theorem readLength?_eq_none {numeral : Bytes} {length : Nat} (h : Numeral.Unsigned numeral length)
    (hbeyond : maxLength < length) :
    readLength? (numeral ++ [Byte.carriageReturn]) = none := by
  refine Option.eq_none_iff_forall_ne_some.2 fun n hread => ?_
  obtain ⟨other, hline, hother, hlimit⟩ := readLength?_eq_some_iff.1 hread
  cases List.append_cancel_right hline
  have hvalue : n = length := h.unique hother
  omega

theorem lineFeed_notMem_of_signed {numeral : Bytes} {count : Int}
    (h : Numeral.Signed numeral count) : Byte.lineFeed ∉ numeral ++ [Byte.carriageReturn] := by
  intro hmem
  rcases List.mem_append.1 hmem with hmem | hmem
  · exact h.notMem (by unfold Numeral.IsDigit; decide) (by decide) (by decide) hmem
  · exact absurd (List.mem_singleton.1 hmem) (by decide)

/-! ## Bulk strings -/

/-- A bulk string as it is written. -/
structure Bulk where
  /-- The numeral of its length. -/
  numeral : Bytes
  /-- What it is about. -/
  payload : Bytes
  denotes : Numeral.Unsigned numeral payload.length
  limit : payload.length ≤ maxLength

namespace Bulk

/-- `$`, the length, the line end, the payload and the line end. -/
def bytes (bulk : Bulk) : Bytes :=
  Byte.dollar :: bulk.numeral ++ Bytes.lineEnd ++ bulk.payload ++ Bytes.lineEnd

/-- The place of the payload, if the `$` has this position. -/
def span (bulk : Bulk) (position : Nat) : Span :=
  let start := position + bulk.numeral.length + 3
  ⟨start, start + bulk.payload.length⟩

theorem stop_span (bulk : Bulk) (position : Nat) :
    (bulk.span position).stop + 2 = position + bulk.bytes.length := by
  simp only [span, bytes, List.cons_append, List.length_append, List.length_cons, List.length_nil]
  omega

theorem slice_span (bulk : Bulk) (before rest : Bytes) :
    (bulk.span before.length).slice (before ++ (bulk.bytes ++ rest)) = bulk.payload := by
  have hstart : before.length + bulk.numeral.length + 3 =
      (before ++ (Byte.dollar :: bulk.numeral ++ Bytes.lineEnd)).length := by
    simp only [List.cons_append, List.length_append, List.length_cons, List.length_nil]
    omega
  have hsplit : before ++ (bulk.bytes ++ rest) =
      before ++ (Byte.dollar :: bulk.numeral ++ Bytes.lineEnd) ++
        (bulk.payload ++ (Bytes.lineEnd ++ rest)) := by
    simp [bytes]
  rw [span, hstart, hsplit, Span.slice_append]

end Bulk

/-- A bulk string is found exactly where one is written. -/
theorem scanBulk_eq_found_iff_bulk {position : Nat} {bytes rest : Bytes} {payload : Span} :
    scanBulk position bytes = .found (payload, rest) ↔
      ∃ bulk : Bulk, bytes = bulk.bytes ++ rest ∧ payload = bulk.span position := by
  rw [scanBulk_eq_found_iff]
  constructor
  · rintro ⟨line, data, _, hlength, hbytes, hpayload⟩
    obtain ⟨numeral, rfl, hnumeral, hlimit⟩ := readLength?_eq_some_iff.1 hlength
    refine ⟨⟨numeral, data, hnumeral, hlimit⟩, ?_, ?_⟩
    · rw [hbytes]
      simp [Bulk.bytes]
    · rw [hpayload, List.length_append, List.length_singleton]
      rfl
  · rintro ⟨bulk, rfl, rfl⟩
    refine ⟨bulk.numeral ++ [Byte.carriageReturn], bulk.payload, ?_, ?_, ?_, ?_⟩
    · exact lineFeed_notMem_of_signed (.unsigned bulk.denotes)
    · exact readLength?_eq_some_iff.2 ⟨_, rfl, bulk.denotes, bulk.limit⟩
    · simp [Bulk.bytes]
    · rw [List.length_append, List.length_singleton]
      rfl

/-- The bytes of bulk strings, one behind the other. -/
def bytesOf (bulks : List Bulk) : Bytes :=
  bulks.flatMap Bulk.bytes

/-- The places of the payloads, if the first `$` has this position. -/
def spansOf (position : Nat) : List Bulk → List Span
  | [] => []
  | bulk :: bulks => bulk.span position :: spansOf (position + bulk.bytes.length) bulks

theorem spansOf_append (position : Nat) (a b : List Bulk) :
    spansOf position (a ++ b) =
      spansOf position a ++ spansOf (position + (bytesOf a).length) b := by
  induction a generalizing position with
  | nil => rfl
  | cons bulk a ih =>
    rw [List.cons_append, spansOf, spansOf, ih, List.cons_append, bytesOf, bytesOf,
      List.flatMap_cons, List.length_append, Nat.add_assoc]

theorem slice_spansOf (bulks : List Bulk) (before rest : Bytes) :
    (spansOf before.length bulks).map (·.slice (before ++ (bytesOf bulks ++ rest))) =
      bulks.map Bulk.payload := by
  induction bulks generalizing before with
  | nil => rfl
  | cons bulk bulks ih =>
    have hsplit : before ++ (bytesOf (bulk :: bulks) ++ rest) =
        before ++ (bulk.bytes ++ (bytesOf bulks ++ rest)) := by
      simp [bytesOf]
    have hothers := ih (before ++ bulk.bytes)
    rw [List.length_append, List.append_assoc] at hothers
    rw [spansOf, List.map_cons, List.map_cons, hsplit, bulk.slice_span, hothers]

/-- The scanner goes over bulk strings that are written. -/
theorem scanBulks_bytesOf_append (bulks : List Bulk) (count position : Nat) (payloads : List Span)
    (more : Bytes) :
    scanBulks (bulks.length + count) position payloads (bytesOf bulks ++ more) =
      scanBulks count (position + (bytesOf bulks).length)
        ((spansOf position bulks).reverse ++ payloads) more := by
  induction bulks generalizing position payloads with
  | nil =>
    rw [List.length_nil, Nat.zero_add]
    rfl
  | cons bulk bulks ih =>
    have hbulk : scanBulk position (bulk.bytes ++ (bytesOf bulks ++ more)) =
        .found (bulk.span position, bytesOf bulks ++ more) :=
      scanBulk_eq_found_iff_bulk.2 ⟨bulk, rfl, rfl⟩
    have hsplit : bytesOf (bulk :: bulks) ++ more = bulk.bytes ++ (bytesOf bulks ++ more) := by
      simp [bytesOf]
    have hlength : (bytesOf (bulk :: bulks)).length = bulk.bytes.length + (bytesOf bulks).length :=
      List.length_append
    rw [List.length_cons, Nat.add_right_comm, hsplit, scanBulks, hbulk]
    dsimp only
    rw [ih, bulk.stop_span, hlength, Nat.add_assoc, spansOf, List.reverse_cons, List.append_assoc,
      List.singleton_append]

theorem exists_of_scanBulks_eq_found_bulks {count position : Nat} {payloads : List Span}
    {bytes : Bytes} {frame : Frame} (h : scanBulks count position payloads bytes = .found frame) :
    ∃ bulks rest, bulks.length = count ∧ bytes = bytesOf bulks ++ rest ∧
      frame = ⟨position + (bytesOf bulks).length, payloads.reverse ++ spansOf position bulks,
        .multibulk⟩ := by
  induction count generalizing position payloads bytes with
  | zero =>
    cases h
    exact ⟨[], bytes, rfl, rfl, by rw [spansOf, List.append_nil]; rfl⟩
  | succ count ih =>
    unfold scanBulks at h
    split at h <;> try contradiction
    rename_i payload rest hbulk
    obtain ⟨bulk, rfl, rfl⟩ := scanBulk_eq_found_iff_bulk.1 hbulk
    obtain ⟨bulks, rest, hcount, rfl, rfl⟩ := ih h
    refine ⟨bulk :: bulks, rest, by rw [List.length_cons, hcount], ?_, ?_⟩
    · simp [bytesOf]
    · have hlength : (bytesOf (bulk :: bulks)).length =
          bulk.bytes.length + (bytesOf bulks).length := List.length_append
      rw [bulk.stop_span, hlength, spansOf, List.reverse_cons, List.append_assoc,
        List.singleton_append, Nat.add_assoc]

/-! ## Requests -/

/-- A request of which the header is written, and at least a part of what it announces. -/
structure Draft where
  /-- The numeral of the count. -/
  numeral : Bytes
  /-- The count. -/
  count : Int
  /-- The bulk strings that are written. -/
  bulks : List Bulk
  denotes : Numeral.Signed numeral count
  limits : minCount ≤ count ∧ count ≤ maxCount
  length_bulks_le : bulks.length ≤ count.toNat

namespace Draft

/-- `*`, the count, the line end and the bulk strings. -/
def bytes (draft : Draft) : Bytes :=
  Byte.star :: draft.numeral ++ Bytes.lineEnd ++ bytesOf draft.bulks

/-- The places of the payloads. -/
def spans (draft : Draft) : List Span :=
  spansOf (draft.numeral.length + 3) draft.bulks

/-- All that the header announces is written. A count that is not positive announces nothing. -/
def Finished (draft : Draft) : Prop :=
  draft.bulks.length = draft.count.toNat

/-- The place of the request. -/
def frame (draft : Draft) : Frame :=
  ⟨draft.bytes.length, draft.spans, .multibulk⟩

theorem length_bytes (draft : Draft) :
    draft.bytes.length = draft.numeral.length + 3 + (bytesOf draft.bulks).length := by
  simp only [bytes, List.cons_append, List.length_append, List.length_cons, List.length_nil]
  omega

/-- The spans cut the payloads out, whatever follows. -/
theorem slice_spans (draft : Draft) (rest : Bytes) :
    draft.spans.map (·.slice (draft.bytes ++ rest)) = draft.bulks.map Bulk.payload := by
  have hheader : (Byte.star :: draft.numeral ++ Bytes.lineEnd).length =
      draft.numeral.length + 3 := by
    simp only [List.cons_append, List.length_append, List.length_cons, List.length_nil]
  rw [spans, ← hheader, bytes, List.append_assoc]
  exact slice_spansOf draft.bulks _ rest

end Draft

/-- The scanner looks at the first line as a whole, once it has ended. -/
theorem scan_star_line {line : Bytes} (h : Byte.lineFeed ∉ line) (bytes : Bytes) :
    Frame.scan (Byte.star :: (line ++ Byte.lineFeed :: bytes)) =
      match readCount? line with
      | none => .malformed .badCount
      | some count => scanBulks count (line.length + 2) [] bytes := by
  have hline : scanLine .badCount (line ++ Byte.lineFeed :: bytes) = .found (line, bytes) :=
    scanLine_eq_found_iff.2 ⟨h, rfl⟩
  rewrite [Frame.scan, if_pos rfl, scan, hline]
  rfl

theorem scan_of_signed {numeral : Bytes} {count : Int} (h : Numeral.Signed numeral count)
    (bytes : Bytes) :
    Frame.scan (Byte.star :: numeral ++ Bytes.lineEnd ++ bytes) =
      match readCount? (numeral ++ [Byte.carriageReturn]) with
      | none => .malformed .badCount
      | some n => scanBulks n (numeral.length + 3) [] bytes := by
  have hsplit : Byte.star :: numeral ++ Bytes.lineEnd ++ bytes =
      Byte.star :: (numeral ++ [Byte.carriageReturn] ++ Byte.lineFeed :: bytes) := by
    simp
  rw [hsplit, scan_star_line (lineFeed_notMem_of_signed h), List.length_append,
    List.length_singleton, Nat.add_assoc]

/-- Behind a draft the scanner goes on with the bulk strings that are missing. -/
theorem scan_draft_append (draft : Draft) (more : Bytes) :
    Frame.scan (draft.bytes ++ more) =
      scanBulks (draft.count.toNat - draft.bulks.length) draft.bytes.length draft.spans.reverse
        more := by
  have hcount : readCount? (draft.numeral ++ [Byte.carriageReturn]) = some draft.count.toNat :=
    readCount?_eq_some_iff.2 ⟨_, _, rfl, draft.denotes, draft.limits, rfl⟩
  have hsplit : draft.count.toNat =
      draft.bulks.length + (draft.count.toNat - draft.bulks.length) := by
    have := draft.length_bulks_le
    omega
  rw [Draft.bytes, List.append_assoc, scan_of_signed draft.denotes, hcount]
  dsimp only
  conv => lhs; rw [hsplit]
  rw [scanBulks_bytesOf_append, List.append_nil, ← Draft.spans, ← draft.length_bytes]
  rfl

/-- What is wrong with the next bulk string is wrong with the request. -/
theorem scan_unfinished_append {draft : Draft} (h : ¬ draft.Finished) {more : Bytes} {fault : Fault}
    (hbulk : scanBulk draft.bytes.length more = .malformed fault) :
    Frame.scan (draft.bytes ++ more) = .malformed fault := by
  have hle := draft.length_bulks_le
  obtain ⟨missing, hmissing⟩ : ∃ missing,
      draft.count.toNat - draft.bulks.length = missing + 1 := by
    refine Nat.exists_eq_succ_of_ne_zero fun hnone => h ?_
    show draft.bulks.length = draft.count.toNat
    omega
  rw [scan_draft_append, hmissing, scanBulks, hbulk]

theorem exists_finished_of_scan_eq_found {bytes : Bytes} {frame : Frame}
    (h : Frame.scan (Byte.star :: bytes) = .found frame) :
    ∃ draft : Draft, draft.Finished ∧ draft.bytes <+: Byte.star :: bytes ∧ frame = draft.frame := by
  rw [Frame.scan, if_pos rfl] at h
  unfold scan at h
  split at h <;> try contradiction
  rename_i line behind hline
  obtain ⟨_, rfl⟩ := scanLine_eq_found_iff.1 hline
  split at h <;> try contradiction
  rename_i n hcount
  obtain ⟨numeral, count, rfl, hnumeral, hlimits, rfl⟩ := readCount?_eq_some_iff.1 hcount
  obtain ⟨bulks, rest, hbulks, rfl, rfl⟩ := exists_of_scanBulks_eq_found_bulks h
  let draft : Draft := ⟨numeral, count, bulks, hnumeral, hlimits, Nat.le_of_eq hbulks⟩
  refine ⟨draft, hbulks, ⟨rest, by simp [draft, Draft.bytes]⟩, ?_⟩
  rw [Draft.frame, draft.length_bytes, Draft.spans, List.length_append]
  rfl

/-- **A multibulk request is found exactly where one is written.** That is where `*`, a numeral
with a value in the range of counts and the line end stand, and then as many bulk strings as the
value says, none if it is not positive; a bulk string is `$`, a numeral of its length, which is
within the limit, the line end, its payload and the line end. The request takes these bytes and no
more, and its spans cut out the payloads. A numeral with a value beyond the limits is refused,
however large the value is. -/
theorem scan_eq_found_iff_finished (bytes : Bytes) :
    (∀ frame, Frame.scan (Byte.star :: bytes) = .found frame ↔
      ∃ draft : Draft, draft.Finished ∧ draft.bytes <+: Byte.star :: bytes ∧
        frame = draft.frame) ∧
      (∀ draft : Draft, draft.bytes <+: Byte.star :: bytes →
        draft.frame.arguments.map (·.slice (Byte.star :: bytes)) =
          draft.bulks.map Bulk.payload) ∧
      (∀ numeral count, numeral ++ Bytes.lineEnd <+: bytes → Numeral.Signed numeral count →
        count < minCount ∨ maxCount < count →
        Frame.scan (Byte.star :: bytes) = .malformed .badCount) ∧
      ∀ (draft : Draft) (numeral : Bytes) (length : Nat), ¬ draft.Finished →
        draft.bytes ++ Byte.dollar :: numeral ++ Bytes.lineEnd <+: Byte.star :: bytes →
        Numeral.Unsigned numeral length → maxLength < length →
        Frame.scan (Byte.star :: bytes) = .malformed .badLength := by
  refine ⟨fun frame => ⟨exists_finished_of_scan_eq_found, ?_⟩, ?_, ?_, ?_⟩
  · rintro ⟨draft, hfinished, ⟨rest, hbytes⟩, rfl⟩
    rw [← hbytes, scan_draft_append, hfinished, Nat.sub_self, scanBulks, List.reverse_reverse]
    rfl
  · rintro draft ⟨rest, hbytes⟩
    rw [← hbytes]
    exact draft.slice_spans rest
  · rintro numeral count ⟨rest, rfl⟩ hnumeral hbeyond
    have hscan := scan_of_signed hnumeral rest
    rw [readCount?_eq_none hnumeral hbeyond] at hscan
    exact hscan
  · rintro draft numeral length hunfinished ⟨rest, hbytes⟩ hnumeral hbeyond
    rw [← hbytes, List.append_assoc, List.append_assoc]
    refine scan_unfinished_append hunfinished ?_
    have hline : Byte.dollar :: numeral ++ (Bytes.lineEnd ++ rest) =
        Byte.dollar :: (numeral ++ [Byte.carriageReturn] ++ Byte.lineFeed :: rest) := by
      simp
    rw [hline, scanBulk_dollar_line (lineFeed_notMem_of_signed (.unsigned hnumeral)),
      readLength?_eq_none hnumeral hbeyond]

/-- Two arguments, a line feed and nothing, with signs and leading zeros in the headers; and a count
and a length that would be 1 in 64 bits. -/
theorem scan_eq_found_iff_finished_leadingZeros :
    let bytes : Bytes := Utf8.encode "+02\r\n$+1\r\n\n\r\n$00\r\n\r\n*1\r\n"
    let wide : Bytes := Utf8.encode "18446744073709551617"
    (∃ draft : Draft, draft.Finished ∧ draft.bytes <+: Byte.star :: bytes ∧
      Frame.scan (Byte.star :: bytes) = .found draft.frame ∧
      draft.frame.arguments.map (·.slice (Byte.star :: bytes)) = [[Byte.lineFeed], []]) ∧
      Frame.scan (Byte.star :: (wide ++ Bytes.lineEnd)) = .malformed .badCount ∧
      Frame.scan (Byte.star :: Utf8.encode "1\r\n$18446744073709551617\r\na\r\n") =
        .malformed .badLength := by
  intro bytes wide
  have hplus : Numeral.Unsigned (Utf8.encode "+1") 1 :=
    Numeral.readUnsigned?_eq_some_iff.1 (by decide +kernel)
  have hzeros : Numeral.Unsigned (Utf8.encode "00") 0 :=
    Numeral.readUnsigned?_eq_some_iff.1 (by decide +kernel)
  have htwo : Numeral.Signed (Utf8.encode "+02") 2 :=
    Numeral.readSigned?_eq_some_iff.1 (by decide +kernel)
  have hone : Numeral.Signed (Utf8.encode "1") 1 :=
    Numeral.readSigned?_eq_some_iff.1 (by decide +kernel)
  have hwide : Numeral.Unsigned wide 18446744073709551617 :=
    Numeral.readUnsigned?_eq_some_iff.1 (by decide +kernel)
  let draft : Draft :=
    { numeral := Utf8.encode "+02"
      count := 2
      bulks := [⟨Utf8.encode "+1", [Byte.lineFeed], hplus, by decide⟩,
        ⟨Utf8.encode "00", [], hzeros, by decide⟩]
      denotes := htwo
      limits := by decide
      length_bulks_le := Nat.le_refl 2 }
  let header : Draft := ⟨Utf8.encode "1", 1, [], hone, by decide, by decide⟩
  have hprefix : draft.bytes <+: Byte.star :: bytes := ⟨Utf8.encode "*1\r\n", rfl⟩
  obtain ⟨hfound, hslices, _, _⟩ := scan_eq_found_iff_finished bytes
  obtain ⟨_, _, hcount, _⟩ := scan_eq_found_iff_finished (wide ++ Bytes.lineEnd)
  obtain ⟨_, _, _, hlength⟩ :=
    scan_eq_found_iff_finished (Utf8.encode "1\r\n$18446744073709551617\r\na\r\n")
  refine ⟨⟨draft, rfl, hprefix, (hfound _).2 ⟨draft, rfl, hprefix, rfl⟩, hslices draft hprefix⟩,
    ?_, ?_⟩
  · exact hcount wide _ (List.prefix_refl _) (.unsigned hwide) (.inr (by decide))
  · have hunfinished : ¬ header.Finished := Nat.zero_ne_one
    exact hlength header wide _ hunfinished ⟨Utf8.encode "a\r\n", rfl⟩ hwide (by decide)

end LogStore.Multibulk
