import LogStore.Proofs.Engine.Course
import LogStore.Proofs.Request.Encoding
import LogStore.Proofs.Request.Words

/-!
# A request in either form

A client may write the arguments of a request as a line of words, each bare or between quotes as the
client likes, or as an array of bulk strings. Where both can be written, the scanner finds the same
arguments (`Inline.Layout.exists_scan_line`, `Frame.exists_scan_encode_array`); and the engine goes
by the arguments alone, apart from the raw bytes that it stages (`Engine.execute_congr_arguments`). So
the form of a request makes no difference to its reply and to the keyspace.
-/

namespace LogStore

open Reply (encode)

/-! ## Lines of words as requests -/

namespace Inline

/-- What ends a line: a line feed behind a carriage return, or alone, where the line does not end
with a carriage return of its own. -/
inductive Ends (line : Bytes) : Bytes → Prop
  | both : Ends line Bytes.lineEnd
  | lineFeed (h : line.getLast? ≠ some Byte.carriageReturn) : Ends line [Byte.lineFeed]

theorem Word.mem_bytes {word : Word} {b : Byte} (h : b ∈ word.bytes) :
    b = Byte.quote ∨ b ∈ word.content := by
  cases word with
  | bare content ne_nil plain => exact .inr h
  | quoted content unquoted =>
    simp only [Word.bytes, List.mem_cons, List.mem_append, List.not_mem_nil, or_false] at h
    rcases h with hquote | hcontent | hquote
    · exact .inl hquote
    · exact .inr hcontent
    · exact .inl hquote

theorem mem_written {words : List Spaced} {trailing : Nat} {b : Byte}
    (h : b ∈ written words trailing) :
    b = Byte.space ∨ b = Byte.quote ∨ ∃ spaced ∈ words, b ∈ spaced.word.content := by
  induction words with
  | nil => exact .inl (List.eq_of_mem_replicate h)
  | cons spaced words ih =>
    rw [written, Spaced.bytes, List.append_assoc] at h
    rcases List.mem_append.1 h with hspaces | hmem
    · exact .inl (List.eq_of_mem_replicate hspaces)
    · rcases List.mem_append.1 hmem with hword | hrest
      · rcases Word.mem_bytes hword with hquote | hcontent
        · exact .inr (.inl hquote)
        · exact .inr (.inr ⟨spaced, List.mem_cons_self, hcontent⟩)
      · rcases ih hrest with hspace | hquote | ⟨other, hother, hcontent⟩
        · exact .inl hspace
        · exact .inr (.inl hquote)
        · exact .inr (.inr ⟨other, List.mem_cons_of_mem _ hother, hcontent⟩)

theorem Layout.lineFeed_notMem {layout : Layout}
    (h : ∀ content ∈ layout.contents, Byte.lineFeed ∉ content) : Byte.lineFeed ∉ layout.bytes := by
  intro hmem
  rcases mem_written hmem with hspace | hquote | ⟨spaced, hspaced, hcontent⟩
  · exact absurd hspace (by decide)
  · exact absurd hquote (by decide)
  · exact h _ (List.mem_map_of_mem hspaced) hcontent

/-- The line end does not belong to the words. -/
theorem Ends.exists_line {line lineEnd : Bytes} (h : Ends line lineEnd)
    (hline : Byte.lineFeed ∉ line) :
    ∃ whole, Byte.lineFeed ∉ whole ∧ line ++ lineEnd = whole ++ [Byte.lineFeed] ∧
      (chopReturn? whole).getD whole = line := by
  cases h with
  | both =>
    refine ⟨line ++ [Byte.carriageReturn], ?_, by simp, ?_⟩
    · have hreturn : Byte.lineFeed ≠ Byte.carriageReturn := by decide
      simp [hline, hreturn]
    · rw [chopReturn?_append]
      rfl
  | lineFeed hlast =>
    refine ⟨line, hline, rfl, ?_⟩
    rw [chopReturn?, if_neg hlast]
    rfl

/-- A line of words is found as the request that says what they say, whatever follows it. -/
theorem Layout.exists_scan_line {layout : Layout} {lineEnd : Bytes}
    (hcontents : ∀ content ∈ layout.contents, Byte.lineFeed ∉ content)
    (hstar : layout.bytes.head? ≠ some Byte.star) (hend : Ends layout.bytes lineEnd)
    (rest : Bytes) : Frame.scan (layout.bytes ++ lineEnd ++ rest) =
      .found ⟨(layout.bytes ++ lineEnd).length, layout.spans, .inline⟩ := by
  obtain ⟨whole, hwhole, hbytes, hchop⟩ := hend.exists_line (Layout.lineFeed_notMem hcontents)
  have hhead : (layout.bytes ++ lineEnd ++ rest).head? ≠ some Byte.star := by
    cases hline : layout.bytes with
    | nil =>
      cases hend with
      | both =>
        show some Byte.carriageReturn ≠ some Byte.star
        decide
      | lineFeed _ =>
        show some Byte.lineFeed ≠ some Byte.star
        decide
    | cons b line =>
      rw [hline] at hstar
      exact hstar
  have hne : layout.bytes ++ lineEnd ++ rest ≠ [] := by
    rw [hbytes]
    simp
  rw [scan_of_head_ne_star hne hhead]
  refine scan_eq_found_iff.2 ⟨whole, rest, layout.spans, hwhole, ?_, ?_, ?_⟩
  · rw [hbytes, List.append_assoc, List.singleton_append]
  · rw [hchop]
    exact layout.splitWords_bytes
  · rw [hbytes, List.length_append, List.length_singleton]

end Inline

/-! ## The engine on both forms -/

/-- A request that is found at the head says what it says without the bytes behind it. -/
theorem Frame.arguments_cut_append {frame : Frame} {bytes : Bytes}
    (h : frame.length = bytes.length) (rest : Bytes) :
    (frame.cut (bytes ++ rest)).arguments = frame.arguments.map (·.slice bytes) := by
  rw [Frame.cut, h, List.take_left]

/-- **The form of a request makes no difference to what it says.** Arguments without quotes and line
feeds, within the limits, may be written as a line of words in any way, as long as the line does not
begin with `*`, or as an array of bulk strings. Whatever follows, the scanner finds an inline
request that takes just the line and a multibulk request that takes just the array, both with these
arguments; and every engine gives the same reply to them, and is left with the same keyspace. -/
theorem Engine.execute_line_eq_execute_array (layout : Inline.Layout) {lineEnd : Bytes}
    (hcontents : ∀ content ∈ layout.contents, Byte.lineFeed ∉ content)
    (hstar : layout.bytes.head? ≠ some Byte.star) (hend : Inline.Ends layout.bytes lineEnd)
    (hcount : layout.contents.length ≤ Multibulk.maxCount)
    (hlength : ∀ content ∈ layout.contents, content.length ≤ Multibulk.maxLength)
    (rest other : Bytes) :
    let line := layout.bytes ++ lineEnd
    let array := encode (.array (layout.contents.map .bulk))
    ∃ inline multibulk : Frame,
      (Frame.scan (line ++ rest) = .found inline ∧ inline.framing = .inline ∧
        inline.length = line.length ∧ (inline.cut (line ++ rest)).arguments = layout.contents) ∧
      (Frame.scan (array ++ other) = .found multibulk ∧ multibulk.framing = .multibulk ∧
        multibulk.length = array.length ∧
        (multibulk.cut (array ++ other)).arguments = layout.contents) ∧
      ∀ engine : Engine,
        (engine.execute (inline.cut (line ++ rest))).1 =
            (engine.execute (multibulk.cut (array ++ other))).1 ∧
          (engine.execute (inline.cut (line ++ rest))).2.keyspace =
            (engine.execute (multibulk.cut (array ++ other))).2.keyspace := by
  intro line array
  let inline : Frame := ⟨line.length, layout.spans, .inline⟩
  have hinline : Frame.scan (line ++ rest) = .found inline :=
    layout.exists_scan_line hcontents hstar hend rest
  have hwords : (inline.cut (line ++ rest)).arguments = layout.contents := by
    rw [Frame.arguments_cut_append rfl]
    exact layout.slice_spans lineEnd
  -- The array alone gives the frame, and with it slices that do not reach beyond it.
  obtain ⟨multibulk, hscan, hsize, hframing, hslices⟩ :=
    Frame.exists_scan_encode_array hcount hlength []
  rw [List.append_nil] at hscan hslices
  have hbulks : (multibulk.cut (array ++ other)).arguments = layout.contents := by
    rw [Frame.arguments_cut_append hsize]
    exact hslices
  refine ⟨inline, multibulk, ⟨hinline, rfl, rfl, hwords⟩, ?_, fun engine => ?_⟩
  · exact ⟨Frame.scan_append hscan other, hframing, hsize, hbulks⟩
  · exact execute_congr_arguments rfl rfl (hwords.trans hbulks.symm)

/-- A name that begins with `*` behind a space, an argument that is empty, and one that ends with a
carriage return inside its quotes, on a line that ends with a line feed alone. -/
theorem Engine.execute_line_eq_execute_array_quotes :
    let contents : List Bytes := ["*1", "", "a b\r"].map Utf8.encode
    let line := Utf8.encode " *1 \"\"   \"a b\r\"\n"
    let array := encode (.array (contents.map .bulk))
    let rest := Utf8.encode "get k\r\n"
    ∃ inline multibulk : Frame,
      (Frame.scan (line ++ rest) = .found inline ∧ inline.framing = .inline ∧
        inline.length = line.length ∧ (inline.cut (line ++ rest)).arguments = contents) ∧
      (Frame.scan (array ++ rest) = .found multibulk ∧ multibulk.framing = .multibulk ∧
        multibulk.length = array.length ∧ (multibulk.cut (array ++ rest)).arguments = contents) ∧
      ∀ engine : Engine,
        (engine.execute (inline.cut (line ++ rest))).1 =
            (engine.execute (multibulk.cut (array ++ rest))).1 ∧
          (engine.execute (inline.cut (line ++ rest))).2.keyspace =
            (engine.execute (multibulk.cut (array ++ rest))).2.keyspace := by
  intro contents line array rest
  let layout : Inline.Layout :=
    { words :=
        [⟨1, .bare (Utf8.encode "*1") (by decide +kernel) (by decide +kernel)⟩,
          ⟨1, .quoted [] nofun⟩,
          ⟨3, .quoted (Utf8.encode "a b\r") (by decide +kernel)⟩]
      trailing := 0
      apart := by decide }
  have hline : layout.bytes ++ [Byte.lineFeed] = line := by decide +kernel
  have hcontents : layout.contents = contents := by decide +kernel
  have hplain : ∀ content ∈ layout.contents, Byte.lineFeed ∉ content := by decide +kernel
  have hstar : layout.bytes.head? ≠ some Byte.star := by decide +kernel
  have hlast : layout.bytes.getLast? ≠ some Byte.carriageReturn := by decide +kernel
  have hcount : layout.contents.length ≤ Multibulk.maxCount := by decide +kernel
  have hlength : ∀ content ∈ layout.contents, content.length ≤ Multibulk.maxLength := by
    decide +kernel
  have hboth := execute_line_eq_execute_array layout hplain hstar (.lineFeed hlast) hcount hlength
    rest rest
  rw [hline, hcontents] at hboth
  exact hboth

end LogStore
