import LogStore.Request.Basic

/-!
# A request depends on its own bytes only

The scanner looks from the head of whatever has arrived. Here it is shown what that look commits to:
a request that is found lies in the bytes it takes, and these bytes alone, or followed by anything
else, give the same request (`Frame.exists_of_scan_eq_found`). So bytes that arrive later never
change a request that was found. The same is said first of a line and of a bulk string, whose found
forms are characterised exactly (`scanLine_eq_found_iff`, `Multibulk.scanBulk_eq_found_iff`).
-/

namespace LogStore

/-! ## Lines -/

theorem splitLine?_eq_some_iff {bytes line rest : Bytes} :
    splitLine? bytes = some (line, rest) ↔
      Byte.lineFeed ∉ line ∧ bytes = line ++ Byte.lineFeed :: rest := by
  constructor
  · intro h
    rcases splitLine?_cases bytes with ⟨_, hnone⟩ | ⟨line', rest', hline, hbytes, hsome⟩
    · rw [hnone] at h
      cases h
    · rw [hsome] at h
      cases h
      exact ⟨hline, hbytes⟩
  · rintro ⟨hline, rfl⟩
    exact splitLine?_append hline

theorem splitLine?_eq_none_iff {bytes : Bytes} :
    splitLine? bytes = none ↔ Byte.lineFeed ∉ bytes := by
  refine ⟨fun h hmem => ?_, splitLine?_eq_none⟩
  rcases splitLine?_cases bytes with ⟨hnot, _⟩ | ⟨line, rest, _, _, hsome⟩
  · exact hnot hmem
  · rw [hsome] at h
    cases h

theorem scanLine_eq_found_iff {tooLong : Fault} {bytes line rest : Bytes} :
    scanLine tooLong bytes = .found (line, rest) ↔
      Byte.lineFeed ∉ line ∧ bytes = line ++ Byte.lineFeed :: rest := by
  rw [← splitLine?_eq_some_iff]
  unfold scanLine
  constructor
  · intro h
    split at h
    · rename_i hsome
      cases h
      exact hsome
    · split at h <;> cases h
  · intro h
    rw [h]

theorem scanLine_eq_malformed_iff {tooLong fault : Fault} {bytes : Bytes} :
    scanLine tooLong bytes = .malformed fault ↔
      fault = tooLong ∧ Byte.lineFeed ∉ bytes ∧ maxLineLength < bytes.length := by
  rw [← splitLine?_eq_none_iff]
  unfold scanLine
  constructor
  · intro h
    split at h
    · cases h
    · rename_i hnone
      split at h
      · rename_i hlong
        cases h
        exact ⟨rfl, hnone, hlong⟩
      · cases h
  · rintro ⟨rfl, hnone, hlong⟩
    rw [hnone]
    exact if_pos hlong

theorem chopReturn?_append (line : Bytes) :
    chopReturn? (line ++ [Byte.carriageReturn]) = some line := by
  rw [chopReturn?, List.getLast?_concat, if_pos rfl, List.dropLast_concat]

/-- A span that begins behind `before` and is as long as `bytes` cuts them out. -/
theorem Span.slice_append (before bytes rest : Bytes) :
    Span.slice ⟨before.length, before.length + bytes.length⟩ (before ++ (bytes ++ rest)) =
      bytes := by
  rw [slice, List.drop_left, Nat.add_sub_cancel_left, List.take_left]

/-! ## Bulk strings -/

namespace Multibulk

/-- The scanner looks at the line of a length as a whole, once it has ended, and then at as many
bytes as it says and the two behind them. -/
theorem scanBulk_dollar_line {line : Bytes} (h : Byte.lineFeed ∉ line) (position : Nat)
    (payload : Bytes) :
    scanBulk position (Byte.dollar :: (line ++ Byte.lineFeed :: payload)) =
      match readLength? line with
      | none => .malformed .badLength
      | some length =>
        match payload.drop length with
        | c :: l :: rest =>
          if c = Byte.carriageReturn ∧ l = Byte.lineFeed then
            .found (⟨position + line.length + 2, position + line.length + 2 + length⟩, rest)
          else .malformed .badTerminator
        | _ => .incomplete := by
  have hline : scanLine .badLength (line ++ Byte.lineFeed :: payload) = .found (line, payload) :=
    scanLine_eq_found_iff.2 ⟨h, rfl⟩
  rewrite [scanBulk, if_pos rfl, hline]
  rfl

/-- A bulk string is found exactly where `$`, the line of its length, that many bytes and the line
end stand. -/
theorem scanBulk_eq_found_iff {position : Nat} {bytes rest : Bytes} {payload : Span} :
    scanBulk position bytes = .found (payload, rest) ↔
      ∃ line data, Byte.lineFeed ∉ line ∧ readLength? line = some data.length ∧
        bytes = Byte.dollar :: line ++ Byte.lineFeed :: data ++ Bytes.lineEnd ++ rest ∧
        payload = ⟨position + line.length + 2, position + line.length + 2 + data.length⟩ := by
  constructor
  · intro h
    unfold scanBulk at h
    split at h <;> try contradiction
    split at h <;> try contradiction
    split at h <;> try contradiction
    rename_i hdollar _ line after hline
    obtain ⟨hmem, rfl⟩ := scanLine_eq_found_iff.1 hline
    split at h <;> try contradiction
    rename_i length hlength
    split at h <;> try contradiction
    rename_i c l behind hdrop
    split at h <;> try contradiction
    rename_i hend
    cases h
    obtain ⟨rfl, rfl⟩ := hend
    subst hdollar
    have hlen : (after.take length).length = length := by
      have := congrArg List.length hdrop
      simp only [List.length_drop, List.length_cons] at this
      rw [List.length_take]
      omega
    refine ⟨line, after.take length, hmem, by rw [hlen, hlength], ?_, by rw [hlen]⟩
    have hafter : after = after.take length ++ Byte.carriageReturn :: Byte.lineFeed :: rest := by
      rw [← hdrop, List.take_append_drop]
    conv => lhs; rw [hafter]
    simp
  · rintro ⟨line, data, hmem, hlength, rfl, rfl⟩
    have hline : scanLine .badLength (line ++ Byte.lineFeed :: data ++ Bytes.lineEnd ++ rest) =
        .found (line, data ++ Byte.carriageReturn :: Byte.lineFeed :: rest) :=
      scanLine_eq_found_iff.2 ⟨hmem, by simp⟩
    rw [List.cons_append, List.cons_append, List.cons_append, scanBulk, if_pos rfl, hline]
    simp only [hlength, List.drop_left, and_self, if_true]

/-- The bytes of a bulk string that was found, and what else may follow them. -/
theorem exists_of_scanBulk_eq_found {position : Nat} {bytes rest : Bytes} {payload : Span}
    (h : scanBulk position bytes = .found (payload, rest)) :
    ∃ taken, bytes = taken ++ rest ∧ position + taken.length = payload.stop + 2 ∧
      ∀ more, scanBulk position (taken ++ more) = .found (payload, more) := by
  obtain ⟨line, data, hmem, hlength, rfl, rfl⟩ := scanBulk_eq_found_iff.1 h
  refine ⟨Byte.dollar :: line ++ Byte.lineFeed :: data ++ Bytes.lineEnd, rfl, ?_, fun more => ?_⟩
  · simp only [List.cons_append, List.length_append, List.length_cons, List.length_nil]
    omega
  · exact scanBulk_eq_found_iff.2 ⟨line, data, hmem, hlength, rfl, rfl⟩

theorem scanBulk_append {position : Nat} {bytes rest : Bytes} {payload : Span}
    (h : scanBulk position bytes = .found (payload, rest)) (more : Bytes) :
    scanBulk position (bytes ++ more) = .found (payload, rest ++ more) := by
  obtain ⟨taken, rfl, _, hlocal⟩ := exists_of_scanBulk_eq_found h
  rw [List.append_assoc]
  exact hlocal _

/-- The same for all bulk strings of a request. -/
theorem exists_of_scanBulks_eq_found {count position : Nat} {payloads : List Span} {bytes : Bytes}
    {frame : Frame} (h : scanBulks count position payloads bytes = .found frame) :
    ∃ taken rest, bytes = taken ++ rest ∧ position + taken.length = frame.length ∧
      ∀ more, scanBulks count position payloads (taken ++ more) = .found frame := by
  induction count generalizing position payloads bytes with
  | zero =>
    cases h
    exact ⟨[], bytes, rfl, rfl, fun _ => rfl⟩
  | succ count ih =>
    unfold scanBulks at h
    split at h <;> try contradiction
    rename_i payload rest hbulk
    obtain ⟨taken, rfl, hlength, hlocal⟩ := exists_of_scanBulk_eq_found hbulk
    obtain ⟨others, rest, rfl, hothers, hrest⟩ := ih h
    refine ⟨taken ++ others, rest, (List.append_assoc ..).symm, ?_, fun more => ?_⟩
    · rw [List.length_append]
      omega
    · rw [List.append_assoc, scanBulks, hlocal]
      exact hrest more

theorem exists_of_scan_eq_found {bytes : Bytes} {frame : Frame} (h : scan bytes = .found frame) :
    ∃ taken rest, bytes = taken ++ rest ∧ taken.length + 1 = frame.length ∧
      ∀ more, scan (taken ++ more) = .found frame := by
  unfold scan at h
  split at h <;> try contradiction
  rename_i line behind hline
  obtain ⟨hmem, rfl⟩ := scanLine_eq_found_iff.1 hline
  split at h <;> try contradiction
  rename_i count hcount
  obtain ⟨taken, rest, rfl, hlength, hlocal⟩ := exists_of_scanBulks_eq_found h
  refine ⟨line ++ Byte.lineFeed :: taken, rest, by simp, ?_, fun more => ?_⟩
  · simp only [List.length_append, List.length_cons]
    omega
  · have hscan : scanLine .badCount (line ++ Byte.lineFeed :: taken ++ more) =
        .found (line, taken ++ more) :=
      scanLine_eq_found_iff.2 ⟨hmem, by simp⟩
    simp only [scan, hscan, hcount]
    exact hlocal more

end Multibulk

/-! ## Inline requests and requests of either form -/

namespace Inline

/-- An inline request is found exactly where a line has ended that splits into words. -/
theorem scan_eq_found_iff {bytes : Bytes} {frame : Frame} :
    scan bytes = .found frame ↔
      ∃ line rest words, Byte.lineFeed ∉ line ∧ bytes = line ++ Byte.lineFeed :: rest ∧
        splitWords ((chopReturn? line).getD line) = .ok words ∧
        frame = ⟨line.length + 1, words, .inline⟩ := by
  constructor
  · intro h
    unfold scan at h
    split at h <;> try contradiction
    rename_i line rest hline
    obtain ⟨hmem, rfl⟩ := scanLine_eq_found_iff.1 hline
    split at h <;> try contradiction
    rename_i words hwords
    cases h
    exact ⟨line, rest, words, hmem, rfl, hwords, rfl⟩
  · rintro ⟨line, rest, words, hmem, rfl, hwords, rfl⟩
    have hline : scanLine .lineTooLong (line ++ Byte.lineFeed :: rest) = .found (line, rest) :=
      scanLine_eq_found_iff.2 ⟨hmem, rfl⟩
    simp only [scan, hline, hwords]

theorem exists_of_scan_eq_found {bytes : Bytes} {frame : Frame} (h : scan bytes = .found frame) :
    ∃ taken rest, bytes = taken ++ rest ∧ taken.length = frame.length ∧
      ∀ more, scan (taken ++ more) = .found frame := by
  obtain ⟨line, rest, words, hmem, rfl, hwords, rfl⟩ := scan_eq_found_iff.1 h
  refine ⟨line ++ [Byte.lineFeed], rest, by simp, by simp, fun more => ?_⟩
  exact scan_eq_found_iff.2 ⟨line, more, words, hmem, by simp, hwords, rfl⟩

/-- What does not begin with `*` is scanned as a line. -/
theorem scan_of_head_ne_star {bytes : Bytes} (hne : bytes ≠ [])
    (hstar : bytes.head? ≠ some Byte.star) : Frame.scan bytes = scan bytes := by
  cases bytes with
  | nil => exact absurd rfl hne
  | cons b bytes =>
    have hb : b ≠ Byte.star := fun heq => hstar (congrArg some heq)
    rw [Frame.scan, if_neg hb]

end Inline

namespace Frame

/-- A request that is found takes some bytes from the head, and these give the same request whatever
follows them. -/
theorem exists_of_scan_eq_found {bytes : Bytes} {frame : Frame} (h : scan bytes = .found frame) :
    ∃ raw rest, bytes = raw ++ rest ∧ raw.length = frame.length ∧
      ∀ more, scan (raw ++ more) = .found frame := by
  cases bytes with
  | nil => cases h
  | cons b bytes =>
    rw [scan] at h
    by_cases hb : b = Byte.star
    · rw [if_pos hb] at h
      obtain ⟨taken, rest, rfl, hlength, hlocal⟩ := Multibulk.exists_of_scan_eq_found h
      refine ⟨b :: taken, rest, rfl, by simpa using hlength, fun more => ?_⟩
      rw [List.cons_append, scan, if_pos hb]
      exact hlocal more
    · rw [if_neg hb] at h
      obtain ⟨taken, rest, htaken, hlength, hlocal⟩ := Inline.exists_of_scan_eq_found h
      have hpos := Inline.length_pos_of_scan h
      cases taken with
      | nil =>
        rw [List.length_nil] at hlength
        omega
      | cons c taken =>
        cases htaken
        refine ⟨b :: taken, rest, rfl, hlength, fun more => ?_⟩
        rw [List.cons_append, scan, if_neg hb]
        exact hlocal more

variable {bytes : Bytes} {frame : Frame}

theorem length_le_of_scan (h : scan bytes = .found frame) : frame.length ≤ bytes.length := by
  obtain ⟨raw, rest, rfl, hlength, _⟩ := exists_of_scan_eq_found h
  rw [List.length_append]
  omega

/-- Bytes that arrive later do not change a request that was found. -/
theorem scan_append (h : scan bytes = .found frame) (more : Bytes) :
    scan (bytes ++ more) = .found frame := by
  obtain ⟨raw, rest, rfl, _, hlocal⟩ := exists_of_scan_eq_found h
  rw [List.append_assoc]
  exact hlocal _

/-- The raw bytes of a request give the request, whatever follows them. -/
theorem scan_take_append (h : scan bytes = .found frame) (more : Bytes) :
    scan (bytes.take frame.length ++ more) = .found frame := by
  obtain ⟨raw, rest, rfl, hlength, hlocal⟩ := exists_of_scan_eq_found h
  rw [← hlength, List.take_left]
  exact hlocal more

theorem scan_raw_cut (h : scan bytes = .found frame) :
    scan (frame.cut bytes).raw = .found frame := by
  have hraw := scan_take_append h []
  rwa [List.append_nil] at hraw

theorem length_raw_cut (h : scan bytes = .found frame) :
    (frame.cut bytes).raw.length = frame.length := by
  have hle := length_le_of_scan h
  rw [Frame.cut, List.length_take, Nat.min_eq_left hle]

theorem cut_append (h : scan bytes = .found frame) (more : Bytes) :
    frame.cut (bytes ++ more) = frame.cut bytes := by
  rw [Frame.cut, Frame.cut, List.take_append_of_le_length (length_le_of_scan h)]

end Frame

end LogStore
