import LogStore.Proofs.Request.Locality

/-!
# The lines of a request and their limit

The limit on a line is tested only while the line has not ended. So a line that is longer than the
limit is refused when its beginning arrives alone, and accepted when it arrives with its end. Nothing
else that the scanner says depends on how much has arrived: `Frame.lines` lists the lines that the
scanner looks at in a request, and as long as they keep to the limit, a fault found early is found
again behind any further bytes (`Frame.scan_append_of_malformed`). A line that breaks the limit, on
the other hand, always gives a beginning that is refused
(`Frame.exists_scan_eq_malformed_of_mem_lines`).
-/

namespace LogStore

/-- The line at the head of the bytes, without its line feed, if it has ended. -/
def endedLine? (bytes : Bytes) : Option Bytes :=
  (splitLine? bytes).map (·.1)

theorem endedLine?_eq_some_iff {bytes line : Bytes} :
    endedLine? bytes = some line ↔
      Byte.lineFeed ∉ line ∧ ∃ rest, bytes = line ++ Byte.lineFeed :: rest := by
  constructor
  · intro h
    obtain ⟨⟨line', rest⟩, hsplit, rfl⟩ := Option.map_eq_some_iff.1 h
    obtain ⟨hmem, hbytes⟩ := splitLine?_eq_some_iff.1 hsplit
    exact ⟨hmem, rest, hbytes⟩
  · rintro ⟨hmem, rest, rfl⟩
    rw [endedLine?, splitLine?_append hmem, Option.map_some]

/-- A line that has ended is not changed by what follows. -/
theorem endedLine?_append {bytes line : Bytes} (h : endedLine? bytes = some line) (more : Bytes) :
    endedLine? (bytes ++ more) = some line := by
  obtain ⟨hmem, rest, rfl⟩ := endedLine?_eq_some_iff.1 h
  exact endedLine?_eq_some_iff.2 ⟨hmem, rest ++ more, by simp⟩

/-- A line that was too long to wait for stays so, unless it turns out to have ended too late. -/
theorem scanLine_append_of_malformed {tooLong fault : Fault} {bytes : Bytes}
    (h : scanLine tooLong bytes = .malformed fault) (more : Bytes)
    (hfit : ∀ line, endedLine? (bytes ++ more) = some line → line.length ≤ maxLineLength) :
    scanLine tooLong (bytes ++ more) = .malformed fault := by
  obtain ⟨rfl, hmem, hlong⟩ := scanLine_eq_malformed_iff.1 h
  refine scanLine_eq_malformed_iff.2 ⟨rfl, fun hend => ?_, ?_⟩
  · obtain ⟨line, rest, hbytes, hline⟩ := List.eq_append_cons_of_mem hend
    have hle := hfit line (endedLine?_eq_some_iff.2 ⟨hline, rest, hbytes⟩)
    -- The line feed stands behind all of `bytes`, so the line is at least as long as they are.
    have : bytes.length ≤ line.length := by
      rcases List.append_eq_append_iff.1 hbytes with ⟨as, rfl, _⟩ | ⟨bs, hbs, hcons⟩
      · simp
      · cases bs with
        | nil => simp [hbs]
        | cons b bs =>
          cases hcons
          exact absurd (by simp [hbs]) hmem
    omega
  · rw [List.length_append]
    omega

/-- No line feed has come, and more bytes than may wait for one. -/
def Bytes.Overdue (line : Bytes) : Prop :=
  Byte.lineFeed ∉ line ∧ maxLineLength < line.length

/-- The beginning of a line that is too long is refused. -/
theorem scanLine_of_long {tooLong : Fault} {line : Bytes} (hmem : Byte.lineFeed ∉ line)
    (hlong : maxLineLength < line.length) : scanLine tooLong line = .malformed tooLong :=
  scanLine_eq_malformed_iff.2 ⟨rfl, hmem, hlong⟩

/-! ## The lines of a bulk string and of a multibulk request -/

namespace Multibulk

/-- The line that gives the length of the bulk string at the head, if it has ended. -/
def bulkLine? : Bytes → Option Bytes
  | [] => none
  | b :: header => if b = Byte.dollar then endedLine? header else none

/-- The lines that give the lengths of `count` further bulk strings, as far as they are looked at. -/
def bulkLines : (count position : Nat) → Bytes → List Bytes
  | 0, _, _ => []
  | count + 1, position, bytes =>
    (bulkLine? bytes).toList ++
      match scanBulk position bytes with
      | .found (payload, rest) => bulkLines count (payload.stop + 2) rest
      | _ => []

/-- The lines of the request whose first byte, the `*`, has been read. -/
def lines (bytes : Bytes) : List Bytes :=
  match splitLine? bytes with
  | none => []
  | some (line, rest) =>
    line ::
      match readCount? line with
      | none => []
      | some count => bulkLines count (line.length + 2) rest

theorem bulkLine?_append {bytes line : Bytes} (h : bulkLine? bytes = some line) (more : Bytes) :
    bulkLine? (bytes ++ more) = some line := by
  cases bytes with
  | nil => cases h
  | cons b header =>
    rw [bulkLine?] at h
    rw [List.cons_append, bulkLine?]
    split at h
    · rw [if_pos ‹_›]
      exact endedLine?_append h more
    · cases h

theorem exists_bulkLine?_of_found {position : Nat} {bytes rest : Bytes} {payload : Span}
    (h : scanBulk position bytes = .found (payload, rest)) :
    ∃ line, bulkLine? bytes = some line := by
  obtain ⟨line, data, hmem, _, rfl, _⟩ := scanBulk_eq_found_iff.1 h
  refine ⟨line, ?_⟩
  rw [List.cons_append, List.cons_append, List.cons_append, bulkLine?, if_pos rfl]
  exact endedLine?_eq_some_iff.2 ⟨hmem, data ++ Bytes.lineEnd ++ rest, by simp⟩

theorem bulkLines_append {count position : Nat} {payloads : List Span} {bytes : Bytes}
    {frame : Frame} (h : scanBulks count position payloads bytes = .found frame) (more : Bytes) :
    bulkLines count position (bytes ++ more) = bulkLines count position bytes := by
  induction count generalizing position payloads bytes with
  | zero => rfl
  | succ count ih =>
    unfold scanBulks at h
    split at h <;> try contradiction
    rename_i payload rest hbulk
    obtain ⟨line, hline⟩ := exists_bulkLine?_of_found hbulk
    rw [bulkLines, bulkLines, scanBulk_append hbulk more, hbulk, bulkLine?_append hline more, hline]
    exact congrArg _ (ih h)

theorem lines_append {bytes : Bytes} {frame : Frame} (h : scan bytes = .found frame)
    (more : Bytes) : lines (bytes ++ more) = lines bytes := by
  unfold scan at h
  split at h <;> try contradiction
  rename_i line rest hline
  obtain ⟨hmem, rfl⟩ := scanLine_eq_found_iff.1 hline
  split at h <;> try contradiction
  rename_i count hcount
  rw [List.append_assoc, List.cons_append, lines, lines, splitLine?_append hmem,
    splitLine?_append hmem]
  simp only [hcount, bulkLines_append h more]

theorem bulkLines_subset_append (count position : Nat) (bytes more : Bytes) :
    bulkLines count position bytes ⊆ bulkLines count position (bytes ++ more) := by
  induction count generalizing position bytes with
  | zero => exact List.Subset.refl _
  | succ count ih =>
    intro line hline
    rw [bulkLines] at hline ⊢
    rcases List.mem_append.1 hline with hfirst | hlater
    · have hmore := bulkLine?_append (Option.mem_toList.1 hfirst) more
      exact List.mem_append_left _ (by simp [hmore])
    · split at hlater <;> try contradiction
      rename_i payload rest hbulk
      rw [scanBulk_append hbulk more]
      exact List.mem_append_right _ (ih _ _ hlater)

theorem lines_subset_append (bytes more : Bytes) : lines bytes ⊆ lines (bytes ++ more) := by
  intro line hline
  unfold lines at hline
  split at hline <;> try contradiction
  rename_i first rest hsplit
  obtain ⟨hmem, rfl⟩ := splitLine?_eq_some_iff.1 hsplit
  rw [List.append_assoc, List.cons_append, lines, splitLine?_append hmem]
  rcases List.mem_cons.1 hline with rfl | hlater
  · exact List.mem_cons_self
  · refine List.mem_cons_of_mem _ ?_
    split at hlater <;> try contradiction
    exact bulkLines_subset_append _ _ _ _ hlater

/-! ## Faults that are found early -/

/-- What is wrong with a bulk string stays wrong, unless it is that its line has not ended. -/
theorem scanBulk_malformed_cases {position : Nat} {bytes : Bytes} {fault : Fault}
    (h : scanBulk position bytes = .malformed fault) :
    (∃ line, bytes = Byte.dollar :: line ∧ Bytes.Overdue line ∧ fault = .badLength) ∨
      ∀ more, scanBulk position (bytes ++ more) = .malformed fault := by
  cases bytes with
  | nil => cases h
  | cons b header =>
    by_cases hb : b = Byte.dollar
    · subst hb
      rcases splitLine?_cases header with ⟨hmem, hsplit⟩ | ⟨line, payload, hmem, rfl, _⟩
      · rw [scanBulk, if_pos rfl, scanLine, hsplit] at h
        dsimp only at h
        by_cases hlong : maxLineLength < header.length
        · rw [if_pos hlong] at h
          cases h
          exact .inl ⟨header, rfl, ⟨hmem, hlong⟩, rfl⟩
        · rw [if_neg hlong] at h
          cases h
      · refine .inr fun more => ?_
        rw [scanBulk_dollar_line hmem] at h
        rw [List.cons_append, List.append_assoc, List.cons_append, scanBulk_dollar_line hmem]
        split at h
        · exact h
        · rename_i length _
          split at h <;> try contradiction
          rename_i c l rest hdrop
          have hle : length ≤ payload.length := by
            have hlength := congrArg List.length hdrop
            rw [List.length_drop, List.length_cons, List.length_cons] at hlength
            omega
          rw [List.drop_append_of_le_length hle, hdrop]
          by_cases hend : c = Byte.carriageReturn ∧ l = Byte.lineFeed
          · rw [if_pos hend] at h
            cases h
          · rw [if_neg hend] at h
            exact (if_neg hend).trans h
    · refine .inr fun more => ?_
      rw [scanBulk, if_neg hb] at h
      rw [List.cons_append, scanBulk, if_neg hb]
      exact h

theorem scanBulk_append_of_malformed {position : Nat} {bytes : Bytes} {fault : Fault}
    (h : scanBulk position bytes = .malformed fault) (more : Bytes)
    (hfit : ∀ line, bulkLine? (bytes ++ more) = some line → line.length ≤ maxLineLength) :
    scanBulk position (bytes ++ more) = .malformed fault := by
  rcases scanBulk_malformed_cases h with ⟨line, rfl, hoverdue, rfl⟩ | hkept
  · have hline : scanLine .badLength (line ++ more) = .malformed .badLength := by
      refine scanLine_append_of_malformed (scanLine_of_long hoverdue.1 hoverdue.2) more ?_
      intro ended hended
      refine hfit ended ?_
      rw [List.cons_append, bulkLine?, if_pos rfl, hended]
    rw [List.cons_append, scanBulk, if_pos rfl, hline]
  · exact hkept more

theorem scanBulks_append_of_malformed {count position : Nat} {payloads : List Span} {bytes : Bytes}
    {fault : Fault} (h : scanBulks count position payloads bytes = .malformed fault) (more : Bytes)
    (hfit : ∀ line ∈ bulkLines count position (bytes ++ more), line.length ≤ maxLineLength) :
    scanBulks count position payloads (bytes ++ more) = .malformed fault := by
  induction count generalizing position payloads bytes with
  | zero => cases h
  | succ count ih =>
    rw [bulkLines] at hfit
    unfold scanBulks at h
    split at h <;> try contradiction
    · rename_i hbulk
      rw [scanBulks, scanBulk_append_of_malformed hbulk more fun line hline =>
        hfit line (List.mem_append_left _ (by simp [hline]))]
      exact h
    · rename_i payload rest hbulk
      rw [scanBulk_append hbulk more] at hfit
      rw [scanBulks, scanBulk_append hbulk more]
      exact ih h fun line hline => hfit line (List.mem_append_right _ hline)

theorem scan_append_of_malformed {bytes : Bytes} {fault : Fault}
    (h : scan bytes = .malformed fault) (more : Bytes)
    (hfit : ∀ line ∈ lines (bytes ++ more), line.length ≤ maxLineLength) :
    scan (bytes ++ more) = .malformed fault := by
  unfold scan at h
  split at h <;> try contradiction
  · rename_i hline
    have hlong : scanLine .badCount (bytes ++ more) = _ :=
      scanLine_append_of_malformed hline more fun line hended => by
        obtain ⟨⟨_, rest⟩, hsplit, rfl⟩ := Option.map_eq_some_iff.1 hended
        exact hfit _ (by simp [lines, hsplit])
    rw [scan, hlong]
    exact h
  · rename_i line rest hline
    obtain ⟨hmem, rfl⟩ := scanLine_eq_found_iff.1 hline
    have hmore : scanLine .badCount (line ++ Byte.lineFeed :: rest ++ more) =
        .found (line, rest ++ more) :=
      scanLine_eq_found_iff.2 ⟨hmem, by simp⟩
    rw [List.append_assoc, List.cons_append, lines, splitLine?_append hmem] at hfit
    rw [scan, hmore]
    simp only at hfit ⊢
    split at h
    · exact h
    · rename_i count hcount
      rw [hcount] at hfit
      exact scanBulks_append_of_malformed h more fun line hline =>
        hfit line (List.mem_cons_of_mem _ hline)

/-! ## Beginnings that are refused -/

theorem exists_scanBulk_eq_malformed {bytes line : Bytes} (h : bulkLine? bytes = some line)
    (hlong : maxLineLength < line.length) (position : Nat) :
    ∃ head tail fault, bytes = head ++ tail ∧ scanBulk position head = .malformed fault := by
  cases bytes with
  | nil => cases h
  | cons b header =>
    rw [bulkLine?] at h
    split at h <;> try contradiction
    rename_i hb
    obtain ⟨hmem, rest, rfl⟩ := endedLine?_eq_some_iff.1 h
    refine ⟨b :: line, Byte.lineFeed :: rest, .badLength, rfl, ?_⟩
    rw [scanBulk, if_pos hb, scanLine_of_long hmem hlong]

theorem exists_scanBulks_eq_malformed {count position : Nat} {bytes line : Bytes}
    (h : line ∈ bulkLines count position bytes) (hlong : maxLineLength < line.length)
    (payloads : List Span) :
    ∃ head tail fault, bytes = head ++ tail ∧
      scanBulks count position payloads head = .malformed fault := by
  induction count generalizing position bytes payloads with
  | zero => cases h
  | succ count ih =>
    rw [bulkLines] at h
    rcases List.mem_append.1 h with hfirst | hlater
    · obtain ⟨head, tail, fault, hbytes, hhead⟩ :=
        exists_scanBulk_eq_malformed (Option.mem_toList.1 hfirst) hlong position
      exact ⟨head, tail, fault, hbytes, by rw [scanBulks, hhead]⟩
    · split at hlater <;> try contradiction
      rename_i payload rest hbulk
      obtain ⟨taken, rfl, _, hlocal⟩ := exists_of_scanBulk_eq_found hbulk
      obtain ⟨head, tail, fault, rfl, hhead⟩ := ih hlater (payload :: payloads)
      refine ⟨taken ++ head, tail, fault, (List.append_assoc ..).symm, ?_⟩
      rw [scanBulks, hlocal]
      exact hhead

theorem exists_scan_eq_malformed {bytes line : Bytes} (h : line ∈ lines bytes)
    (hlong : maxLineLength < line.length) :
    ∃ head tail fault, bytes = head ++ tail ∧ scan head = .malformed fault := by
  unfold lines at h
  split at h <;> try contradiction
  rename_i first rest hsplit
  obtain ⟨hmem, rfl⟩ := splitLine?_eq_some_iff.1 hsplit
  rcases List.mem_cons.1 h with rfl | h
  · refine ⟨line, Byte.lineFeed :: rest, .badCount, rfl, ?_⟩
    rw [scan, scanLine_of_long hmem hlong]
  · split at h <;> try contradiction
    rename_i count hcount
    obtain ⟨head, tail, fault, rfl, hhead⟩ := exists_scanBulks_eq_malformed h hlong []
    refine ⟨first ++ Byte.lineFeed :: head, tail, fault, by simp, ?_⟩
    have hline : scanLine .badCount (first ++ Byte.lineFeed :: head) = .found (first, head) :=
      scanLine_eq_found_iff.2 ⟨hmem, rfl⟩
    simp only [scan, hline, hcount]
    exact hhead

end Multibulk

/-! ## Inline requests -/

namespace Inline

theorem scan_append_of_malformed {bytes : Bytes} {fault : Fault}
    (h : scan bytes = .malformed fault) (more : Bytes)
    (hfit : ∀ line, endedLine? (bytes ++ more) = some line → line.length ≤ maxLineLength) :
    scan (bytes ++ more) = .malformed fault := by
  unfold scan at h
  split at h <;> try contradiction
  · rename_i hline
    rw [scan, scanLine_append_of_malformed hline more hfit]
    exact h
  · rename_i line rest hline
    obtain ⟨hmem, rfl⟩ := scanLine_eq_found_iff.1 hline
    have hmore : scanLine .lineTooLong (line ++ Byte.lineFeed :: rest ++ more) =
        .found (line, rest ++ more) :=
      scanLine_eq_found_iff.2 ⟨hmem, by simp⟩
    rw [scan, hmore]
    exact h

end Inline

/-! ## Requests of either form -/

/-- The lines that the scanner looks at in the request at the head of the bytes, as far as they have
ended: the line of an inline request, or the lines of the count and the lengths. They are given
without their first byte, `*` or `$`, and without the line feed, as the limit counts them. -/
def Frame.lines : Bytes → List Bytes
  | [] => []
  | b :: rest => if b = Byte.star then Multibulk.lines rest else (endedLine? (b :: rest)).toList

/-- The lines of a request keep to the limit. -/
def Request.LinesFit (request : Request) : Prop :=
  ∀ line ∈ Frame.lines request.raw, line.length ≤ maxLineLength

instance : DecidablePred Request.LinesFit := fun request =>
  inferInstanceAs (Decidable (∀ line ∈ Frame.lines request.raw, line.length ≤ maxLineLength))

namespace Frame

theorem lines_append {bytes : Bytes} {frame : Frame} (h : scan bytes = .found frame)
    (more : Bytes) : lines (bytes ++ more) = lines bytes := by
  cases bytes with
  | nil => cases h
  | cons b rest =>
    rw [scan] at h
    rw [List.cons_append, lines, lines]
    split at h
    · rw [if_pos ‹_›, if_pos ‹_›, Multibulk.lines_append h]
    · rename_i hb
      obtain ⟨line, _, _, hmem, hbytes, _⟩ := Inline.scan_eq_found_iff.1 h
      have hline : endedLine? (b :: rest) = some line := endedLine?_eq_some_iff.2 ⟨hmem, _, hbytes⟩
      rw [if_neg hb, if_neg hb, ← List.cons_append, endedLine?_append hline, hline]

/-- Lines that have ended stay what they are. -/
theorem lines_subset_append (bytes more : Bytes) : lines bytes ⊆ lines (bytes ++ more) := by
  intro line hline
  cases bytes with
  | nil => cases hline
  | cons b rest =>
    rw [lines] at hline
    rw [List.cons_append, lines]
    split at hline
    · rw [if_pos ‹_›]
      exact Multibulk.lines_subset_append rest more hline
    · rw [if_neg ‹_›, ← List.cons_append, endedLine?_append (Option.mem_toList.1 hline) more]
      exact List.mem_singleton_self line

/-- The lines of a request are those of its raw bytes. -/
theorem lines_raw_cut {bytes : Bytes} {frame : Frame} (h : scan bytes = .found frame) :
    lines (frame.cut bytes).raw = lines bytes := by
  rw [← lines_append (scan_raw_cut h) (bytes.drop frame.length)]
  exact congrArg lines (List.take_append_drop ..)

/-- A fault that is found early is found again behind further bytes, if no line breaks the limit. -/
theorem scan_append_of_malformed {bytes : Bytes} {fault : Fault}
    (h : scan bytes = .malformed fault) (more : Bytes)
    (hfit : ∀ line ∈ lines (bytes ++ more), line.length ≤ maxLineLength) :
    scan (bytes ++ more) = .malformed fault := by
  cases bytes with
  | nil => cases h
  | cons b rest =>
    rw [scan] at h
    rw [List.cons_append, lines] at hfit
    rw [List.cons_append, scan]
    split at h
    · rw [if_pos ‹_›] at hfit ⊢
      exact Multibulk.scan_append_of_malformed h more hfit
    · rw [if_neg ‹_›] at hfit ⊢
      exact Inline.scan_append_of_malformed h more fun line hline => hfit line (by
        rw [← List.cons_append, hline, Option.toList_some]
        exact List.mem_singleton_self line)

/-- A request with a line that breaks the limit has a beginning that is refused. -/
theorem exists_scan_eq_malformed_of_mem_lines {bytes line : Bytes} (h : line ∈ lines bytes)
    (hlong : maxLineLength < line.length) :
    ∃ head tail fault, bytes = head ++ tail ∧ scan head = .malformed fault := by
  cases bytes with
  | nil => cases h
  | cons b rest =>
    rw [lines] at h
    split at h
    · rename_i hb
      obtain ⟨head, tail, fault, rfl, hhead⟩ := Multibulk.exists_scan_eq_malformed h hlong
      exact ⟨b :: head, tail, fault, rfl, by rwa [scan, if_pos hb]⟩
    · rename_i hb
      obtain ⟨hmem, behind, hbytes⟩ := endedLine?_eq_some_iff.1 (Option.mem_toList.1 h)
      cases line with
      | nil => simp at hlong
      | cons c line =>
        cases hbytes
        refine ⟨b :: line, Byte.lineFeed :: behind, .lineTooLong, rfl, ?_⟩
        rw [scan, if_neg hb, Inline.scan, scanLine_of_long hmem hlong]

end Frame

end LogStore
