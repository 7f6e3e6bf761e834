import Mathlib.Data.List.Induction
import LogStore.Proofs.Request.Grammar
import LogStore.Proofs.Request.LineLimit

/-!
# Verdicts that stand

The scanner is asked again whenever more bytes have come, so it matters which of its answers are
final. A request that is found stays found, and no beginning of it is taken for a shorter request or
for something malformed. A fault stays as well, with one exception: a line of which more bytes have
come than may wait for its end (`Frame.Overdue`). Such a line may yet end, and then the fault is
gone. All this is put together in `Frame.scan_final`.
-/

namespace LogStore

/-! ## Spans in order -/

/-- Spans one behind the other, none of which goes beyond the position `limit`. -/
structure Span.Ordered (spans : List Span) (limit : Nat) : Prop where
  within : ∀ span ∈ spans, span.start ≤ span.stop ∧ span.stop ≤ limit
  apart : spans.Pairwise (·.stop ≤ ·.start)

namespace Span.Ordered

variable {spans : List Span} {a b : Nat}

theorem nil (limit : Nat) : Ordered [] limit :=
  ⟨nofun, .nil⟩

theorem mono (h : Ordered spans a) (hle : a ≤ b) : Ordered spans b := by
  refine ⟨fun span hspan => ?_, h.apart⟩
  have := h.within span hspan
  omega

theorem concat (h : Ordered spans a) (span : Span) (hstart : a ≤ span.start)
    (hstop : span.start ≤ span.stop) : Ordered (spans ++ [span]) span.stop := by
  constructor
  · intro other hother
    rcases List.mem_append.1 hother with hbefore | hlast
    · have := h.within other hbefore
      omega
    · cases List.mem_singleton.1 hlast
      exact ⟨hstop, Nat.le_refl _⟩
  · refine List.pairwise_append.2 ⟨h.apart, List.pairwise_singleton _ _, ?_⟩
    intro other hother last hlast
    cases List.mem_singleton.1 hlast
    have := h.within other hother
    omega

end Span.Ordered

/-! ## The words of a line -/

namespace Inline

/-- The words that have ended come before the position, and before the word that is being read. -/
def Place.Fits (place : Place) (position : Nat) (words : List Span) : Prop :=
  match place with
  | .gap | .closed => Span.Ordered words.reverse position
  | .bare start | .quoted start => Span.Ordered words.reverse start ∧ start ≤ position

theorem ordered_word {words : List Span} {start position : Nat}
    (h : Span.Ordered words.reverse start) (hle : start ≤ position) :
    Span.Ordered (⟨start, position⟩ :: words : List Span).reverse position := by
  rw [List.reverse_cons]
  exact h.concat ⟨start, position⟩ (Nat.le_refl start) hle

theorem ordered_splitFrom {place : Place} {position : Nat} {words spans : List Span} {bytes : Bytes}
    (hfits : place.Fits position words) (h : splitFrom place position words bytes = .ok spans) :
    Span.Ordered spans (position + bytes.length) := by
  induction bytes generalizing place position words with
  | nil =>
    cases place with
    | gap | closed =>
      cases h
      exact hfits
    | bare start =>
      cases h
      exact ordered_word hfits.1 hfits.2
    | quoted start => cases h
  | cons b rest ih =>
    have hlength : position + (b :: rest).length = position + 1 + rest.length := by
      rw [List.length_cons]
      omega
    have hnext : position ≤ position + 1 := Nat.le_succ position
    rw [hlength]
    cases place with
    | gap =>
      have hgap : Place.Fits .gap (position + 1) words := hfits.mono hnext
      rw [splitFrom] at h
      by_cases hspace : b = Byte.space
      · rw [if_pos hspace] at h
        exact ih hgap h
      · rw [if_neg hspace] at h
        by_cases hquote : b = Byte.quote
        · have hquoted : Place.Fits (.quoted (position + 1)) (position + 1) words :=
            ⟨hgap, Nat.le_refl _⟩
          rw [if_pos hquote] at h
          exact ih hquoted h
        · have hbare : Place.Fits (.bare position) (position + 1) words := ⟨hfits, hnext⟩
          rw [if_neg hquote] at h
          exact ih hbare h
    | bare start =>
      obtain ⟨hwords, hle⟩ := hfits
      rw [splitFrom] at h
      by_cases hspace : b = Byte.space
      · have hgap : Place.Fits .gap (position + 1) (⟨start, position⟩ :: words) :=
          (ordered_word hwords hle).mono hnext
        rw [if_pos hspace] at h
        exact ih hgap h
      · rw [if_neg hspace] at h
        by_cases hquote : b = Byte.quote
        · rw [if_pos hquote] at h
          cases h
        · have hbare : Place.Fits (.bare start) (position + 1) words :=
            ⟨hwords, Nat.le_succ_of_le hle⟩
          rw [if_neg hquote] at h
          exact ih hbare h
    | quoted start =>
      obtain ⟨hwords, hle⟩ := hfits
      rw [splitFrom] at h
      by_cases hquote : b = Byte.quote
      · have hclosed : Place.Fits .closed (position + 1) (⟨start, position⟩ :: words) :=
          (ordered_word hwords hle).mono hnext
        rw [if_pos hquote] at h
        exact ih hclosed h
      · have hquoted : Place.Fits (.quoted start) (position + 1) words :=
          ⟨hwords, Nat.le_succ_of_le hle⟩
        rw [if_neg hquote] at h
        exact ih hquoted h
    | closed =>
      rw [splitFrom] at h
      by_cases hspace : b = Byte.space
      · have hgap : Place.Fits .gap (position + 1) words := hfits.mono hnext
        rw [if_pos hspace] at h
        exact ih hgap h
      · rw [if_neg hspace] at h
        cases h

theorem ordered_of_scan {bytes : Bytes} {frame : Frame} (h : scan bytes = .found frame) :
    Span.Ordered frame.arguments frame.length := by
  obtain ⟨line, rest, words, _, _, hwords, rfl⟩ := scan_eq_found_iff.1 h
  have hfits : Place.Fits .gap 0 [] := Span.Ordered.nil 0
  have hordered := ordered_splitFrom hfits hwords
  refine hordered.mono ?_
  rw [Nat.zero_add]
  show ((chopReturn? line).getD line).length ≤ line.length + 1
  unfold chopReturn?
  split
  · rw [Option.getD_some, List.length_dropLast]
    omega
  · exact Nat.le_succ _

end Inline

/-! ## The payloads of bulk strings -/

namespace Multibulk

theorem ordered_spansOf (position : Nat) (bulks : List Bulk) :
    Span.Ordered (spansOf position bulks) (position + (bytesOf bulks).length) := by
  induction bulks using List.reverseRecOn with
  | nil => exact .nil _
  | append_singleton bulks bulk ih =>
    have hlength : (bytesOf (bulks ++ [bulk])).length =
        (bytesOf bulks).length + bulk.bytes.length := by
      simp [bytesOf]
    have hstop := bulk.stop_span (position + (bytesOf bulks).length)
    rw [spansOf_append, hlength]
    refine (ih.concat (bulk.span _) ?_ ?_).mono ?_
    · simp only [Bulk.span]
      omega
    · simp only [Bulk.span]
      omega
    · omega

theorem Draft.ordered_spans (draft : Draft) :
    Span.Ordered draft.frame.arguments draft.frame.length := by
  have hordered := ordered_spansOf (draft.numeral.length + 3) draft.bulks
  rwa [← draft.length_bytes] at hordered

end Multibulk

/-! ## Lines that are overdue -/

/-- The last line of the bytes is overdue; the fault is that of such a line in its place: the line
of an inline request, that of a count, or that of a length behind the bulk strings before. -/
inductive Frame.Overdue : Bytes → Fault → Prop
  | inline {line : Bytes} (hline : Bytes.Overdue line) (hstar : line.head? ≠ some Byte.star) :
      Overdue line .lineTooLong
  | count {line : Bytes} (hline : Bytes.Overdue line) : Overdue (Byte.star :: line) .badCount
  | length {draft : Multibulk.Draft} {line : Bytes} (hunfinished : ¬ draft.Finished)
      (hline : Bytes.Overdue line) : Overdue (draft.bytes ++ Byte.dollar :: line) .badLength

theorem Frame.scan_of_overdue {bytes : Bytes} {fault : Fault} (h : Overdue bytes fault) :
    scan bytes = .malformed fault := by
  cases h with
  | inline hline hstar =>
    cases bytes with
    | nil => exact absurd hline.2 (Nat.not_lt_zero _)
    | cons b line =>
      have hb : b ≠ Byte.star := fun heq => hstar (congrArg some heq)
      rw [scan, if_neg hb, Inline.scan, scanLine_of_long hline.1 hline.2]
  | count hline => rw [scan, if_pos rfl, Multibulk.scan, scanLine_of_long hline.1 hline.2]
  | length hunfinished hline =>
    refine Multibulk.scan_unfinished_append hunfinished ?_
    rw [Multibulk.scanBulk, if_pos rfl, scanLine_of_long hline.1 hline.2]

/-! ## Faults that stay -/

namespace Multibulk

theorem scanBulks_malformed_cases {count position : Nat} {payloads : List Span} {bytes : Bytes}
    {fault : Fault} (h : scanBulks count position payloads bytes = .malformed fault) :
    (∃ bulks line, bulks.length < count ∧ bytes = bytesOf bulks ++ Byte.dollar :: line ∧
        Bytes.Overdue line ∧ fault = .badLength) ∨
      ∀ more, scanBulks count position payloads (bytes ++ more) = .malformed fault := by
  induction count generalizing position payloads bytes with
  | zero => cases h
  | succ count ih =>
    cases hbulk : scanBulk position bytes with
    | incomplete =>
      rw [scanBulks, hbulk] at h
      cases h
    | malformed other =>
      rw [scanBulks, hbulk] at h
      cases h
      rcases scanBulk_malformed_cases hbulk with ⟨line, rfl, hline, rfl⟩ | hkept
      · exact .inl ⟨[], line, Nat.succ_pos count, rfl, hline, rfl⟩
      · refine .inr fun more => ?_
        rw [scanBulks, hkept more]
    | found value =>
      obtain ⟨payload, rest⟩ := value
      rw [scanBulks, hbulk] at h
      rcases ih h with ⟨bulks, line, hcount, hrest, hline, rfl⟩ | hkept
      · obtain ⟨bulk, rfl, _⟩ := scanBulk_eq_found_iff_bulk.1 hbulk
        refine .inl ⟨bulk :: bulks, line, Nat.succ_lt_succ hcount, ?_, hline, rfl⟩
        rw [hrest, bytesOf, bytesOf, List.flatMap_cons, List.append_assoc]
      · refine .inr fun more => ?_
        rw [scanBulks, scanBulk_append hbulk more]
        exact hkept more

theorem scan_malformed_cases {bytes : Bytes} {fault : Fault}
    (h : Frame.scan (Byte.star :: bytes) = .malformed fault) :
    Frame.Overdue (Byte.star :: bytes) fault ∨
      ∀ more, Frame.scan (Byte.star :: (bytes ++ more)) = .malformed fault := by
  rcases splitLine?_cases bytes with ⟨hmem, hsplit⟩ | ⟨line, rest, hmem, rfl, _⟩
  · rw [Frame.scan, if_pos rfl, scan, scanLine, hsplit] at h
    dsimp only at h
    by_cases hlong : maxLineLength < bytes.length
    · rw [if_pos hlong] at h
      cases h
      exact .inl (.count ⟨hmem, hlong⟩)
    · rw [if_neg hlong] at h
      cases h
  · rw [scan_star_line hmem] at h
    simp only [List.append_assoc, List.cons_append, scan_star_line hmem]
    cases hcount : readCount? line with
    | none =>
      rw [hcount] at h
      exact .inr fun _ => h
    | some n =>
      rw [hcount] at h
      dsimp only at h ⊢
      rcases scanBulks_malformed_cases h with ⟨bulks, last, hbulks, rfl, hline, rfl⟩ | hkept
      · obtain ⟨numeral, count, rfl, hnumeral, hlimits, rfl⟩ := readCount?_eq_some_iff.1 hcount
        let draft : Draft := ⟨numeral, count, bulks, hnumeral, hlimits, Nat.le_of_lt hbulks⟩
        have hdraft : draft.bytes ++ Byte.dollar :: last = Byte.star ::
            (numeral ++ [Byte.carriageReturn] ++
              Byte.lineFeed :: (bytesOf bulks ++ Byte.dollar :: last)) := by
          simp [draft, Draft.bytes]
        have hoverdue : Frame.Overdue (draft.bytes ++ Byte.dollar :: last) .badLength :=
          .length (Nat.ne_of_lt hbulks) hline
        rw [hdraft] at hoverdue
        exact .inl hoverdue
      · exact .inr hkept

end Multibulk

theorem Inline.scan_malformed_cases {bytes : Bytes} {fault : Fault}
    (h : scan bytes = .malformed fault) :
    (Bytes.Overdue bytes ∧ fault = .lineTooLong) ∨
      ∀ more, scan (bytes ++ more) = .malformed fault := by
  rcases splitLine?_cases bytes with ⟨hmem, hsplit⟩ | ⟨line, rest, hmem, rfl, hsplit⟩
  · rw [scan, scanLine, hsplit] at h
    dsimp only at h
    by_cases hlong : maxLineLength < bytes.length
    · rw [if_pos hlong] at h
      cases h
      exact .inl ⟨⟨hmem, hlong⟩, rfl⟩
    · rw [if_neg hlong] at h
      cases h
  · refine .inr fun more => ?_
    have hmore : splitLine? (line ++ Byte.lineFeed :: rest ++ more) =
        some (line, rest ++ more) := by
      rw [List.append_assoc, List.cons_append, splitLine?_append hmem]
    rw [scan, scanLine, hsplit] at h
    rw [scan, scanLine, hmore]
    exact h

/-- A fault stays whatever else comes, unless it is that a line is overdue. -/
theorem Frame.scan_malformed_cases {bytes : Bytes} {fault : Fault}
    (h : scan bytes = .malformed fault) :
    Overdue bytes fault ∨ ∀ more, scan (bytes ++ more) = .malformed fault := by
  cases bytes with
  | nil => cases h
  | cons b bytes =>
    by_cases hb : b = Byte.star
    · subst hb
      exact Multibulk.scan_malformed_cases h
    · rw [scan, if_neg hb] at h
      rcases Inline.scan_malformed_cases h with ⟨hline, rfl⟩ | hkept
      · exact .inl (.inline hline fun hhead => hb (Option.some.inj hhead))
      · refine .inr fun more => ?_
        rw [List.cons_append, scan, if_neg hb]
        exact hkept more

/-! ## Verdicts that stay -/

namespace Frame

variable {bytes : Bytes} {frame : Frame}

theorem ordered_of_scan (h : scan bytes = .found frame) :
    Span.Ordered frame.arguments frame.length := by
  cases bytes with
  | nil => cases h
  | cons b bytes =>
    by_cases hb : b = Byte.star
    · subst hb
      obtain ⟨draft, _, _, rfl⟩ := Multibulk.exists_finished_of_scan_eq_found h
      exact draft.ordered_spans
    · rw [scan, if_neg hb] at h
      exact Inline.ordered_of_scan h

/-- A beginning of a request is neither another request nor wrong for good. -/
theorem scan_take_of_lt (h : scan bytes = .found frame) {k : Nat} (hk : k < frame.length) :
    scan (bytes.take k) = .incomplete ∨
      ∃ fault, Overdue (bytes.take k) fault ∧ scan (bytes.take k) = .malformed fault := by
  have hwhole : bytes.take k ++ bytes.drop k = bytes := List.take_append_drop k bytes
  cases hscan : scan (bytes.take k) with
  | incomplete => exact .inl rfl
  | found shorter =>
    have hsame := scan_append hscan (bytes.drop k)
    rw [hwhole, h] at hsame
    cases hsame
    have hle := length_le_of_scan hscan
    rw [List.length_take] at hle
    omega
  | malformed fault =>
    rcases scan_malformed_cases hscan with hoverdue | hkept
    · exact .inr ⟨fault, hoverdue, rfl⟩
    · have hlater := hkept (bytes.drop k)
      rw [hwhole, h] at hlater
      cases hlater

/-- **Which verdicts of the scanner are final.** A request that is found takes one byte at least and
lies within the bytes; its arguments lie in it, one behind the other; it is found again whatever
follows, and in its own bytes alone; and in a beginning of it there is no verdict, unless a line is
overdue. A fault is final unless it is that of a line that is overdue, and such a line has it. -/
theorem scan_final (bytes : Bytes) :
    (∀ frame, scan bytes = .found frame →
      (1 ≤ frame.length ∧ frame.length ≤ bytes.length) ∧
      Span.Ordered frame.arguments frame.length ∧
      (∀ rest, scan (bytes ++ rest) = .found frame) ∧
      scan (bytes.take frame.length) = .found frame ∧
      ∀ k < frame.length, scan (bytes.take k) = .incomplete ∨
        ∃ fault, Overdue (bytes.take k) fault ∧ scan (bytes.take k) = .malformed fault) ∧
      (∀ fault, Overdue bytes fault → scan bytes = .malformed fault) ∧
      ∀ fault, scan bytes = .malformed fault → ¬ Overdue bytes fault →
        ∀ rest, scan (bytes ++ rest) = .malformed fault := by
  refine ⟨?_, fun fault => scan_of_overdue, ?_⟩
  · intro frame hfound
    refine ⟨⟨length_pos_of_scan hfound, length_le_of_scan hfound⟩, ordered_of_scan hfound,
      scan_append hfound, scan_raw_cut hfound, ?_⟩
    intro k hk
    exact scan_take_of_lt hfound hk
  · intro fault hfault hother
    exact (scan_malformed_cases hfault).resolve_left hother

/-- A request in front of the next one, a wrong payload end, and a line of spaces that may yet be an
empty request. -/
theorem scan_final_each :
    let request := Utf8.encode "*1\r\n$1\r\n\n\r\n"
    let broken := Utf8.encode "*1\r\n$1\r\na-\r"
    let spaces := List.replicate (maxLineLength + 1) Byte.space
    (scan (request ++ [Byte.star]) = .found ⟨11, [⟨8, 9⟩], .multibulk⟩ ∧
      Span.Ordered [⟨8, 9⟩] 11 ∧
      scan (request ++ [Byte.star] ++ broken) = .found ⟨11, [⟨8, 9⟩], .multibulk⟩ ∧
      scan request = .found ⟨11, [⟨8, 9⟩], .multibulk⟩) ∧
      scan spaces = .malformed .lineTooLong ∧
      scan broken = .malformed .badTerminator ∧
      scan (broken ++ [Byte.lineFeed]) = .malformed .badTerminator := by
  intro request broken spaces
  have hrequest : scan (request ++ [Byte.star]) = .found ⟨11, [⟨8, 9⟩], .multibulk⟩ := by
    decide +kernel
  have hbroken : scan broken = .malformed .badTerminator := by decide +kernel
  have hspaces : Overdue spaces .lineTooLong := by
    refine .inline ⟨fun hmem => ?_, ?_⟩ fun hhead => absurd (Option.some.inj hhead) (by decide)
    · exact absurd (List.eq_of_mem_replicate hmem) (by decide)
    · rw [List.length_replicate]
      exact Nat.lt_succ_self _
  obtain ⟨_, hordered, hmore, halone, _⟩ := (scan_final (request ++ [Byte.star])).1 _ hrequest
  have hother : ∀ bytes, ¬ Overdue bytes .badTerminator := nofun
  exact ⟨⟨hrequest, hordered, hmore broken, halone⟩, (scan_final spaces).2.1 _ hspaces, hbroken,
    (scan_final broken).2.2 _ hbroken (hother broken) [Byte.lineFeed]⟩

end Frame

end LogStore
