import LogStore.Proofs.Request.Locality

/-!
# The words of a line

An inline request is written as words with spaces around them. A `Layout` is such a line: its words,
each bare or between quotes, the number of spaces in front of each, and the number of spaces at the
end. The splitter goes over a layout word by word (`Inline.splitFrom_written`), and what it gets
through is a layout (`Inline.exists_reads_of_splitFrom`), so it takes exactly the layouts, and
refuses every other line. A line is the layout of one sequence of words at most (`Inline.written_inj`).
-/

namespace LogStore

/-- The span holds the byte at this position. -/
def Span.Covers (span : Span) (position : Nat) : Prop :=
  span.start ≤ position ∧ position < span.stop

namespace Inline

/-! ## Words -/

/-- A word as it is written. -/
inductive Word where
  /-- Some bytes that are neither spaces nor quotes, as they are. -/
  | bare (content : Bytes) (ne_nil : content ≠ [])
      (plain : ∀ b ∈ content, b ≠ Byte.space ∧ b ≠ Byte.quote)
  /-- Any bytes but quotes, between two quotes. -/
  | quoted (content : Bytes) (unquoted : Byte.quote ∉ content)

namespace Word

/-- What the word says, without its quotes. -/
def content : Word → Bytes
  | bare content _ _ => content
  | quoted content _ => content

def bytes : Word → Bytes
  | bare content _ _ => content
  | quoted content _ => Byte.quote :: (content ++ [Byte.quote])

/-- The number of bytes of the word in front of its content. -/
def lead : Word → Nat
  | bare _ _ _ => 0
  | quoted _ _ => 1

end Word

/-- A word with the spaces in front of it. -/
@[ext]
structure Spaced where
  /-- The number of spaces. -/
  gap : Nat
  /-- The word. -/
  word : Word

namespace Spaced

def bytes (spaced : Spaced) : Bytes :=
  List.replicate spaced.gap Byte.space ++ spaced.word.bytes

/-- The place of the content, if the spaces begin at this position. -/
def span (spaced : Spaced) (position : Nat) : Span :=
  let start := position + spaced.gap + spaced.word.lead
  ⟨start, start + spaced.word.content.length⟩

/-- The positions of the quotes around the content. -/
def quotes (spaced : Spaced) (position : Nat) : List Nat :=
  match spaced.word with
  | .bare _ _ _ => []
  | .quoted content _ => [position + spaced.gap, position + spaced.gap + content.length + 1]

end Spaced

/-- Words, one behind the other, and spaces behind the last of them. -/
def written : List Spaced → (trailing : Nat) → Bytes
  | [], trailing => List.replicate trailing Byte.space
  | spaced :: words, trailing => spaced.bytes ++ written words trailing

/-- The places of the contents, if the first word begins at this position. -/
def spansOf (position : Nat) : List Spaced → List Span
  | [] => []
  | spaced :: words => spaced.span position :: spansOf (position + spaced.bytes.length) words

/-- The positions of all quotes. -/
def quotesOf (position : Nat) : List Spaced → List Nat
  | [] => []
  | spaced :: words =>
    spaced.quotes position ++ quotesOf (position + spaced.bytes.length) words

/-- A line of words with at least one space between neighbours. -/
structure Layout where
  /-- The words, each with the spaces in front of it. -/
  words : List Spaced
  /-- The number of spaces at the end of the line. -/
  trailing : Nat
  apart : ∀ spaced ∈ words.tail, 0 < spaced.gap

namespace Layout

def bytes (layout : Layout) : Bytes :=
  written layout.words layout.trailing

/-- What the words say. -/
def contents (layout : Layout) : List Bytes :=
  layout.words.map (·.word.content)

/-- The places of the contents. -/
def spans (layout : Layout) : List Span :=
  spansOf 0 layout.words

/-- The positions of the quotes around the words. -/
def quotes (layout : Layout) : List Nat :=
  quotesOf 0 layout.words

end Layout

/-! ## The splitter on words that are written -/

/-- The bytes go on with a space, or end: a word may end in front of them. -/
def Parted (bytes : Bytes) : Prop :=
  ∀ b ∈ bytes.head?, b = Byte.space

variable {place : Place} {position start : Nat} {spans : List Span} {content more : Bytes}
  {words : List Spaced} {trailing : Nat}

theorem parted_written (h : ∀ spaced ∈ words, 0 < spaced.gap) :
    Parted (written words trailing) := by
  intro b hb
  cases words with
  | nil =>
    have hmem : b ∈ List.replicate trailing Byte.space := List.mem_of_head? hb
    exact List.eq_of_mem_replicate hmem
  | cons spaced words =>
    obtain ⟨gap, hgap⟩ := Nat.exists_eq_succ_of_ne_zero (Nat.ne_of_gt (h spaced (by simp)))
    simp [written, Spaced.bytes, hgap, List.replicate_succ] at hb
    exact hb.symm

theorem splitFrom_spaces (gap position : Nat) (spans : List Span) (more : Bytes) :
    splitFrom .gap position spans (List.replicate gap Byte.space ++ more) =
      splitFrom .gap (position + gap) spans more := by
  induction gap generalizing position with
  | zero => rfl
  | succ gap ih =>
    rw [List.replicate_succ, List.cons_append, splitFrom, if_pos rfl, ih]
    congr 1
    omega

theorem splitFrom_plain (h : ∀ b ∈ content, b ≠ Byte.space ∧ b ≠ Byte.quote)
    (start position : Nat) (spans : List Span) (more : Bytes) :
    splitFrom (.bare start) position spans (content ++ more) =
      splitFrom (.bare start) (position + content.length) spans more := by
  induction content generalizing position with
  | nil => rfl
  | cons b content ih =>
    obtain ⟨⟨hspace, hquote⟩, hcontent⟩ := List.forall_mem_cons.1 h
    rw [List.cons_append, splitFrom, if_neg hspace, if_neg hquote, ih hcontent, List.length_cons]
    congr 1
    omega

theorem splitFrom_unquoted (h : Byte.quote ∉ content) (start position : Nat) (spans : List Span)
    (more : Bytes) :
    splitFrom (.quoted start) position spans (content ++ Byte.quote :: more) =
      splitFrom .closed (position + content.length + 1)
        (⟨start, position + content.length⟩ :: spans) more := by
  induction content generalizing position with
  | nil =>
    rw [List.nil_append, splitFrom, if_pos rfl]
    rfl
  | cons b content ih =>
    obtain ⟨hb, hcontent⟩ := not_or.1 (mt List.mem_cons.2 h)
    have hnext : position + 1 + content.length = position + (b :: content).length := by
      rw [List.length_cons]
      omega
    rw [List.cons_append, splitFrom, if_neg (Ne.symm hb), ih hcontent, hnext]

theorem splitFrom_bare_of_parted (h : Parted more) (start position : Nat) (spans : List Span) :
    splitFrom (.bare start) position spans more =
      splitFrom .gap position (⟨start, position⟩ :: spans) more := by
  cases more with
  | nil => rfl
  | cons b more =>
    have hb : b = Byte.space := h b rfl
    rw [splitFrom, splitFrom, if_pos hb, if_pos hb]

theorem splitFrom_closed_of_parted (h : Parted more) (position : Nat) (spans : List Span) :
    splitFrom .closed position spans more = splitFrom .gap position spans more := by
  cases more with
  | nil => rfl
  | cons b more =>
    have hb : b = Byte.space := h b rfl
    rw [splitFrom, splitFrom, if_pos hb, if_pos hb]

/-- The splitter takes a word with the spaces in front of it as a whole. -/
theorem splitFrom_spaced (spaced : Spaced) (h : Parted more) (position : Nat) (spans : List Span) :
    splitFrom .gap position spans (spaced.bytes ++ more) =
      splitFrom .gap (position + spaced.bytes.length) (spaced.span position :: spans) more := by
  obtain ⟨gap, word⟩ := spaced
  rw [Spaced.bytes, List.append_assoc, splitFrom_spaces, List.length_append, List.length_replicate,
    ← Nat.add_assoc]
  cases word with
  | bare content hne hplain =>
    cases content with
    | nil => exact absurd rfl hne
    | cons b content =>
      obtain ⟨⟨hspace, hquote⟩, hcontent⟩ := List.forall_mem_cons.1 hplain
      have hnext : position + gap + 1 + content.length =
          position + gap + (b :: content).length := by
        rw [List.length_cons]
        omega
      simp only [Word.bytes, Spaced.span, Word.lead, Word.content, Nat.add_zero]
      rw [List.cons_append, splitFrom, if_neg hspace, if_neg hquote, splitFrom_plain hcontent,
        splitFrom_bare_of_parted h, hnext]
  | quoted content hunquoted =>
    have hnext : position + gap + 1 + content.length + 1 =
        position + gap + (Byte.quote :: (content ++ [Byte.quote])).length := by
      simp
      omega
    have hspace : Byte.quote ≠ Byte.space := by decide
    simp only [Word.bytes, Spaced.span, Word.lead, Word.content]
    rw [← hnext, List.cons_append, List.append_assoc, List.singleton_append, splitFrom,
      if_neg hspace, if_pos rfl, splitFrom_unquoted hunquoted, splitFrom_closed_of_parted h]

/-- The splitter goes over words that are written, and gives their places. -/
theorem splitFrom_written (h : ∀ spaced ∈ words.tail, 0 < spaced.gap) (position : Nat)
    (spans : List Span) :
    splitFrom .gap position spans (written words trailing) =
      .ok (spans.reverse ++ spansOf position words) := by
  induction words generalizing position spans with
  | nil =>
    have hspaces := splitFrom_spaces trailing position spans []
    rw [List.append_nil] at hspaces
    rw [written, hspaces, spansOf, List.append_nil]
    rfl
  | cons spaced words ih =>
    have htail : ∀ spaced ∈ words.tail, 0 < spaced.gap := fun spaced hmem =>
      h spaced (List.mem_of_mem_tail hmem)
    have hparted : Parted (written words trailing) := parted_written h
    rw [written, splitFrom_spaced spaced hparted, ih htail, spansOf, List.reverse_cons,
      List.append_assoc, List.singleton_append]

/-! ## What the splitter gets through -/

/-- What the bytes behind a place are, if the splitter gets through them: the rest of the word that
it is in, if it is in one, and further words; and the places of these words. -/
inductive Place.Reads : Place → Nat → Bytes → List Span → Prop
  | gap {position : Nat} (words : List Spaced) (trailing : Nat)
      (apart : ∀ spaced ∈ words.tail, 0 < spaced.gap) :
      Reads .gap position (written words trailing) (spansOf position words)
  | bare {start position : Nat} (content : Bytes) (words : List Spaced) (trailing : Nat)
      (plain : ∀ b ∈ content, b ≠ Byte.space ∧ b ≠ Byte.quote)
      (apart : ∀ spaced ∈ words, 0 < spaced.gap) :
      Reads (.bare start) position (content ++ written words trailing)
        (⟨start, position + content.length⟩ :: spansOf (position + content.length) words)
  | quoted {start position : Nat} (content : Bytes) (words : List Spaced) (trailing : Nat)
      (unquoted : Byte.quote ∉ content) (apart : ∀ spaced ∈ words, 0 < spaced.gap) :
      Reads (.quoted start) position (content ++ Byte.quote :: written words trailing)
        (⟨start, position + content.length⟩ :: spansOf (position + content.length + 1) words)
  | closed {position : Nat} (words : List Spaced) (trailing : Nat)
      (apart : ∀ spaced ∈ words, 0 < spaced.gap) :
      Reads .closed position (written words trailing) (spansOf position words)

/-- A space in front of what is written belongs to the first gap. -/
theorem exists_written_eq_cons (h : ∀ spaced ∈ words.tail, 0 < spaced.gap)
    (trailing position : Nat) :
    ∃ (wider : List Spaced) (behind : Nat), (∀ spaced ∈ wider, 0 < spaced.gap) ∧
      Byte.space :: written words trailing = written wider behind ∧
      spansOf (position + 1) words = spansOf position wider := by
  cases words with
  | nil => exact ⟨[], trailing + 1, nofun, List.replicate_succ.symm, rfl⟩
  | cons spaced words =>
    obtain ⟨gap, word⟩ := spaced
    refine ⟨⟨gap + 1, word⟩ :: words, trailing, ?_, ?_, ?_⟩
    · exact List.forall_mem_cons.2 ⟨Nat.succ_pos gap, h⟩
    · simp [written, Spaced.bytes, List.replicate_succ]
    · have hspan : (⟨gap, word⟩ : Spaced).span (position + 1) =
          (⟨gap + 1, word⟩ : Spaced).span position := by
        simp only [Spaced.span]
        congr 1 <;> omega
      have hnext : position + 1 + (⟨gap, word⟩ : Spaced).bytes.length =
          position + (⟨gap + 1, word⟩ : Spaced).bytes.length := by
        simp only [Spaced.bytes, List.length_append, List.length_replicate]
        omega
      rw [spansOf, spansOf, hspan, hnext]

namespace Place.Reads

variable {bytes : Bytes} {found : List Span}

/-- A space ends a word and widens the gap in front of the next one. -/
theorem space_cons (h : Reads .gap (position + 1) bytes found) :
    Reads .gap position (Byte.space :: bytes) found ∧
      Reads .closed position (Byte.space :: bytes) found ∧
      ∀ start, Reads (.bare start) position (Byte.space :: bytes) (⟨start, position⟩ :: found) := by
  cases h with
  | gap words trailing apart =>
    obtain ⟨wider, behind, hgaps, hbytes, hspans⟩ := exists_written_eq_cons apart trailing position
    rw [hbytes, hspans]
    refine ⟨.gap wider behind fun spaced hmem => ?_, .closed wider behind hgaps, fun start => ?_⟩
    · exact hgaps spaced (List.mem_of_mem_tail hmem)
    · exact .bare [] wider behind nofun hgaps

/-- What a bare word begins with belongs to it. -/
theorem bare_cons {b : Byte} (hspace : b ≠ Byte.space) (hquote : b ≠ Byte.quote)
    (h : Reads (.bare start) (position + 1) bytes found) :
    Reads (.bare start) position (b :: bytes) found := by
  cases h with
  | bare content words trailing plain apart =>
    have hplain : ∀ c ∈ b :: content, c ≠ Byte.space ∧ c ≠ Byte.quote :=
      List.forall_mem_cons.2 ⟨⟨hspace, hquote⟩, plain⟩
    have hnext : position + 1 + content.length = position + (b :: content).length := by
      rw [List.length_cons]
      omega
    rw [hnext]
    exact .bare (b :: content) words trailing hplain apart

theorem quoted_cons {b : Byte} (hquote : b ≠ Byte.quote)
    (h : Reads (.quoted start) (position + 1) bytes found) :
    Reads (.quoted start) position (b :: bytes) found := by
  cases h with
  | quoted content words trailing unquoted apart =>
    have hunquoted : Byte.quote ∉ b :: content := by
      simp [Ne.symm hquote, unquoted]
    have hnext : position + 1 + content.length = position + (b :: content).length := by
      rw [List.length_cons]
      omega
    rw [hnext]
    exact .quoted (b :: content) words trailing hunquoted apart

/-- A closing quote ends a word. -/
theorem quote_cons (h : Reads .closed (position + 1) bytes found) (start : Nat) :
    Reads (.quoted start) position (Byte.quote :: bytes) (⟨start, position⟩ :: found) := by
  cases h with
  | closed words trailing apart => exact .quoted [] words trailing nofun apart

/-- A bare word that begins at once has no space in front of it. -/
theorem gap_of_bare {b : Byte} (hspace : b ≠ Byte.space) (hquote : b ≠ Byte.quote)
    (h : Reads (.bare position) (position + 1) bytes found) :
    Reads .gap position (b :: bytes) found := by
  cases h with
  | bare content words trailing plain apart =>
    have hplain : ∀ c ∈ b :: content, c ≠ Byte.space ∧ c ≠ Byte.quote :=
      List.forall_mem_cons.2 ⟨⟨hspace, hquote⟩, plain⟩
    let spaced : Spaced := ⟨0, .bare (b :: content) (List.cons_ne_nil _ _) hplain⟩
    have hnext : position + 1 + content.length = position + spaced.bytes.length := by
      simp [spaced, Spaced.bytes, Word.bytes]
      omega
    have hspans : (⟨position, position + 1 + content.length⟩ : Span) ::
          spansOf (position + 1 + content.length) words = spansOf position (spaced :: words) := by
      rw [hnext]
      rfl
    rw [hspans]
    exact .gap (spaced :: words) trailing apart

theorem gap_of_quoted (h : Reads (.quoted (position + 1)) (position + 1) bytes found) :
    Reads .gap position (Byte.quote :: bytes) found := by
  cases h with
  | quoted content words trailing unquoted apart =>
    let spaced : Spaced := ⟨0, .quoted content unquoted⟩
    have hbytes : Byte.quote :: (content ++ Byte.quote :: written words trailing) =
        written (spaced :: words) trailing := by
      simp [written, spaced, Spaced.bytes, Word.bytes]
    have hnext : position + 1 + content.length + 1 = position + spaced.bytes.length := by
      simp [spaced, Spaced.bytes, Word.bytes]
      omega
    rw [hbytes, hnext]
    exact .gap (spaced :: words) trailing apart

end Place.Reads

theorem exists_reads_of_splitFrom {bytes : Bytes} {result : List Span}
    (h : splitFrom place position spans bytes = .ok result) :
    ∃ found, place.Reads position bytes found ∧ result = spans.reverse ++ found := by
  induction bytes generalizing place position spans with
  | nil =>
    cases place with
    | gap =>
      cases h
      exact ⟨[], .gap [] 0 nofun, (List.append_nil _).symm⟩
    | bare start =>
      cases h
      refine ⟨_, .bare [] [] 0 nofun nofun, ?_⟩
      rw [List.reverse_cons]
      rfl
    | quoted start => cases h
    | closed =>
      cases h
      exact ⟨[], .closed [] 0 nofun, (List.append_nil _).symm⟩
  | cons b bytes ih =>
    -- The byte either goes on with the word, or it ends the word or a gap: then the place changes.
    cases place with
    | gap =>
      rw [splitFrom] at h
      by_cases hspace : b = Byte.space
      · rw [if_pos hspace] at h
        obtain ⟨found, hreads, hresult⟩ := ih h
        exact ⟨found, hspace ▸ hreads.space_cons.1, hresult⟩
      · rw [if_neg hspace] at h
        by_cases hquote : b = Byte.quote
        · rw [if_pos hquote] at h
          obtain ⟨found, hreads, hresult⟩ := ih h
          exact ⟨found, hquote ▸ hreads.gap_of_quoted, hresult⟩
        · rw [if_neg hquote] at h
          obtain ⟨found, hreads, hresult⟩ := ih h
          exact ⟨found, hreads.gap_of_bare hspace hquote, hresult⟩
    | bare start =>
      rw [splitFrom] at h
      by_cases hspace : b = Byte.space
      · rw [if_pos hspace] at h
        obtain ⟨found, hreads, hresult⟩ := ih h
        refine ⟨⟨start, position⟩ :: found, hspace ▸ hreads.space_cons.2.2 start, ?_⟩
        rw [hresult, List.reverse_cons, List.append_assoc, List.singleton_append]
      · rw [if_neg hspace] at h
        by_cases hquote : b = Byte.quote
        · rw [if_pos hquote] at h
          cases h
        · rw [if_neg hquote] at h
          obtain ⟨found, hreads, hresult⟩ := ih h
          exact ⟨found, hreads.bare_cons hspace hquote, hresult⟩
    | quoted start =>
      rw [splitFrom] at h
      by_cases hquote : b = Byte.quote
      · rw [if_pos hquote] at h
        obtain ⟨found, hreads, hresult⟩ := ih h
        refine ⟨⟨start, position⟩ :: found, hquote ▸ hreads.quote_cons start, ?_⟩
        rw [hresult, List.reverse_cons, List.append_assoc, List.singleton_append]
      · rw [if_neg hquote] at h
        obtain ⟨found, hreads, hresult⟩ := ih h
        exact ⟨found, hreads.quoted_cons hquote, hresult⟩
    | closed =>
      rw [splitFrom] at h
      by_cases hspace : b = Byte.space
      · rw [if_pos hspace] at h
        obtain ⟨found, hreads, hresult⟩ := ih h
        exact ⟨found, hspace ▸ hreads.space_cons.2.1, hresult⟩
      · rw [if_neg hspace] at h
        cases h

/-- A line that the splitter does not get through has a quote that is not closed, or stands inside a
word. -/
theorem eq_unbalancedQuotes_of_splitFrom {bytes : Bytes} {fault : Fault}
    (h : splitFrom place position spans bytes = .error fault) : fault = .unbalancedQuotes := by
  induction bytes generalizing place position spans with
  | nil =>
    cases place with
    | quoted start =>
      cases h
      rfl
    | gap | bare start | closed => cases h
  | cons b bytes ih =>
    unfold splitFrom at h
    split at h
    · split at h
      · exact ih h
      · split at h
        · exact ih h
        · exact ih h
    · split at h
      · exact ih h
      · split at h
        · cases h
          rfl
        · exact ih h
    · split at h
      · exact ih h
      · exact ih h
    · split at h
      · exact ih h
      · cases h
        rfl

/-! ## One sequence of words only -/

/-- Bytes that satisfy `p`, up to one that does not, can be told from what follows. -/
theorem append_inj_of_head {p : Byte → Prop} {a b x y : Bytes} (ha : ∀ c ∈ a, p c)
    (hb : ∀ c ∈ b, p c) (hx : ∀ c ∈ x.head?, ¬ p c) (hy : ∀ c ∈ y.head?, ¬ p c)
    (h : a ++ x = b ++ y) : a = b ∧ x = y := by
  induction a generalizing b with
  | nil =>
    cases b with
    | nil => exact ⟨rfl, h⟩
    | cons c b =>
      have hhead : c ∈ x.head? := by
        rw [List.nil_append] at h
        rw [h]
        rfl
      exact absurd (hb c List.mem_cons_self) (hx c hhead)
  | cons c a ih =>
    obtain ⟨hc, hrest⟩ := List.forall_mem_cons.1 ha
    cases b with
    | nil =>
      have hhead : c ∈ y.head? := by
        rw [List.nil_append] at h
        rw [← h]
        rfl
      exact absurd hc (hy c hhead)
    | cons d b =>
      obtain ⟨rfl, hcons⟩ := List.cons.inj h
      obtain ⟨rfl, hxy⟩ := ih hrest (List.forall_mem_cons.1 hb).2 hcons
      exact ⟨rfl, hxy⟩

theorem Word.ne_space_of_mem_head? (word : Word) {b : Byte} (more : Bytes)
    (h : b ∈ (word.bytes ++ more).head?) : b ≠ Byte.space := by
  cases word with
  | bare content ne_nil plain =>
    cases content with
    | nil => exact absurd rfl ne_nil
    | cons c content =>
      cases h
      exact (plain b List.mem_cons_self).1
  | quoted content unquoted =>
    cases h
    decide

theorem Word.append_inj {v w : Word} {x y : Bytes} (hx : Parted x) (hy : Parted y)
    (h : v.bytes ++ x = w.bytes ++ y) : v = w ∧ x = y := by
  have hbare : ∀ {content : Bytes} {more : Bytes}, content ≠ [] →
      (∀ b ∈ content, b ≠ Byte.space ∧ b ≠ Byte.quote) →
      ∀ rest, content ++ more ≠ Byte.quote :: rest := by
    intro content more hne hplain rest heq
    cases content with
    | nil => exact hne rfl
    | cons b content =>
      obtain ⟨rfl, _⟩ := List.cons.inj heq
      exact (hplain _ List.mem_cons_self).2 rfl
  cases v with
  | bare a hane ha =>
    cases w with
    | bare b hbne hb =>
      have hcut := append_inj_of_head (p := (· ≠ Byte.space)) (fun c hc => (ha c hc).1)
        (fun c hc => (hb c hc).1) (fun c hc hne => hne (hx c hc))
        (fun c hc hne => hne (hy c hc)) h
      obtain ⟨rfl, rfl⟩ := hcut
      exact ⟨rfl, rfl⟩
    | quoted b hb => exact absurd h (hbare hane ha _)
  | quoted a ha =>
    cases w with
    | bare b hbne hb => exact absurd h.symm (hbare hbne hb _)
    | quoted b hb =>
      have hquote : ∀ z : Bytes, ∀ c ∈ ([Byte.quote] ++ z).head?, ¬ c ≠ Byte.quote := by
        intro z c hc hne
        cases hc
        exact hne rfl
      simp only [Word.bytes, List.cons_append, List.append_assoc, List.cons.injEq, true_and] at h
      have hcut := append_inj_of_head (p := (· ≠ Byte.quote))
        (fun c hc => ne_of_mem_of_not_mem hc ha)
        (fun c hc => ne_of_mem_of_not_mem hc hb) (hquote x) (hquote y) h
      obtain ⟨rfl, hxy⟩ := hcut
      exact ⟨rfl, List.append_cancel_left hxy⟩

theorem spaces_append_inj {m n : Nat} {x y : Bytes} (hx : ∀ c ∈ x.head?, c ≠ Byte.space)
    (hy : ∀ c ∈ y.head?, c ≠ Byte.space)
    (h : List.replicate m Byte.space ++ x = List.replicate n Byte.space ++ y) : m = n ∧ x = y := by
  have hcut := append_inj_of_head (p := (· = Byte.space)) (fun _ => List.eq_of_mem_replicate)
    (fun _ => List.eq_of_mem_replicate) hx hy h
  have hlength := congrArg List.length hcut.1
  rw [List.length_replicate, List.length_replicate] at hlength
  exact ⟨hlength, hcut.2⟩

theorem spaces_ne_written (m n : Nat) (spaced : Spaced) (words : List Spaced) :
    List.replicate m Byte.space ≠ written (spaced :: words) n := by
  intro h
  rw [written, Spaced.bytes, List.append_assoc, ← List.append_nil (List.replicate m _)] at h
  have hnil := (spaces_append_inj (by simp) (fun _ => spaced.word.ne_space_of_mem_head? _) h).2
  have hempty : spaced.word.bytes = [] := (List.append_eq_nil_iff.1 hnil.symm).1
  cases hword : spaced.word with
  | bare content ne_nil plain =>
    rw [hword] at hempty
    exact ne_nil hempty
  | quoted content unquoted =>
    rw [hword] at hempty
    cases hempty

/-- A line is written in one way only. -/
theorem written_inj {a b : List Spaced} {m n : Nat} (ha : ∀ spaced ∈ a.tail, 0 < spaced.gap)
    (hb : ∀ spaced ∈ b.tail, 0 < spaced.gap) (h : written a m = written b n) : a = b ∧ m = n := by
  induction a generalizing b with
  | nil =>
    cases b with
    | nil =>
      have hlength := congrArg List.length h
      rw [written, written, List.length_replicate, List.length_replicate] at hlength
      exact ⟨rfl, hlength⟩
    | cons w b => exact absurd h (spaces_ne_written m n w b)
  | cons v a ih =>
    cases b with
    | nil => exact absurd h.symm (spaces_ne_written n m v a)
    | cons w b =>
      have hapart : ∀ {words : List Spaced}, (∀ spaced ∈ words, 0 < spaced.gap) →
          ∀ spaced ∈ words.tail, 0 < spaced.gap := fun hall spaced hmem =>
        hall spaced (List.mem_of_mem_tail hmem)
      rw [written, written, Spaced.bytes, Spaced.bytes, List.append_assoc, List.append_assoc] at h
      obtain ⟨hgap, hwords⟩ := spaces_append_inj (fun _ => v.word.ne_space_of_mem_head? _)
        (fun _ => w.word.ne_space_of_mem_head? _) h
      obtain ⟨hword, hrest⟩ := Word.append_inj (parted_written ha) (parted_written hb) hwords
      obtain ⟨htail, htrailing⟩ := ih (hapart ha) (hapart hb) hrest
      exact ⟨List.cons_eq_cons.2 ⟨Spaced.ext hgap hword, htail⟩, htrailing⟩

/-! ## The bytes of the words, and those between them -/

theorem Spaced.slice_span (spaced : Spaced) (before rest : Bytes) :
    (spaced.span before.length).slice (before ++ (spaced.bytes ++ rest)) =
      spaced.word.content := by
  obtain ⟨gap, word⟩ := spaced
  cases word with
  | bare content ne_nil plain =>
    have hsplit : before ++ (List.replicate gap Byte.space ++ content ++ rest) =
        before ++ List.replicate gap Byte.space ++ (content ++ rest) := by simp
    have hslice := Span.slice_append (before ++ List.replicate gap Byte.space) content rest
    rw [List.length_append, List.length_replicate] at hslice
    simp only [span, bytes, Word.bytes, Word.lead, Word.content, hsplit]
    exact hslice
  | quoted content unquoted =>
    have hsplit : before ++ (List.replicate gap Byte.space ++
          (Byte.quote :: (content ++ [Byte.quote])) ++ rest) =
        before ++ List.replicate gap Byte.space ++ [Byte.quote] ++
          (content ++ (Byte.quote :: rest)) := by simp
    have hslice := Span.slice_append
      (before ++ List.replicate gap Byte.space ++ [Byte.quote]) content (Byte.quote :: rest)
    rw [List.length_append, List.length_append, List.length_replicate] at hslice
    simp only [span, bytes, Word.bytes, Word.lead, Word.content, hsplit]
    exact hslice

/-- The spans cut out what the words say, whatever stands before and behind. -/
theorem slice_spansOf (words : List Spaced) (trailing : Nat) (before rest : Bytes) :
    (spansOf before.length words).map (·.slice (before ++ (written words trailing ++ rest))) =
      words.map (·.word.content) := by
  induction words generalizing before with
  | nil => rfl
  | cons spaced words ih =>
    have hothers := ih (before ++ spaced.bytes)
    rw [List.length_append, List.append_assoc, ← List.append_assoc spaced.bytes] at hothers
    have hfirst := spaced.slice_span before (written words trailing ++ rest)
    rw [← List.append_assoc spaced.bytes] at hfirst
    rw [spansOf, written, List.map_cons, List.map_cons, hfirst, hothers]

/-- What a word with its spaces holds besides its content are spaces and its quotes. -/
theorem Spaced.eq_of_not_covers (spaced : Spaced) {position i : Nat} {b : Byte}
    (hb : spaced.bytes[i]? = some b) (hnot : ¬ (spaced.span position).Covers (position + i)) :
    b = Byte.space ∨ b = Byte.quote ∧ position + i ∈ spaced.quotes position := by
  obtain ⟨gap, word⟩ := spaced
  by_cases hgap : i < gap
  · have hspaces : i < (List.replicate gap Byte.space).length := by simpa using hgap
    rw [bytes, List.getElem?_append_left hspaces] at hb
    exact .inl (List.eq_of_mem_replicate (List.mem_of_getElem? hb))
  · obtain ⟨k, rfl⟩ := Nat.exists_eq_add_of_le (Nat.not_lt.1 hgap)
    have hspaces : (List.replicate gap Byte.space).length ≤ gap + k := by simp
    rw [bytes, List.getElem?_append_right hspaces, List.length_replicate,
      Nat.add_sub_cancel_left] at hb
    cases word with
    | bare content ne_nil plain =>
      obtain ⟨hk, _⟩ := List.getElem?_eq_some_iff.1 hb
      refine absurd ?_ hnot
      simp only [Word.bytes] at hk
      simp only [Span.Covers, span, Word.lead, Word.content]
      omega
    | quoted content unquoted =>
      have hb : (Byte.quote :: (content ++ [Byte.quote]))[k]? = some b := hb
      have houtside : ¬ (1 ≤ k ∧ k < 1 + content.length) := by
        intro hk
        refine hnot ?_
        simp only [Span.Covers, span, Word.lead, Word.content]
        omega
      -- What is left are the first byte and the last one.
      obtain ⟨hlength, _⟩ := List.getElem?_eq_some_iff.1 hb
      simp only [List.length_cons, List.length_append, List.length_nil] at hlength
      have hends : k = 0 ∨ k = content.length + 1 := by omega
      rcases hends with rfl | rfl
      · exact .inr ⟨(Option.some.inj hb).symm, by simp [quotes]⟩
      · rw [List.getElem?_cons_succ, List.getElem?_append_right (Nat.le_refl _)] at hb
        simp only [Nat.sub_self, List.getElem?_cons_zero, Option.some.injEq] at hb
        refine .inr ⟨hb.symm, ?_⟩
        simp only [quotes, List.mem_cons]
        omega

/-- The bytes that no span holds are spaces and the quotes of the words. -/
theorem eq_of_not_covers (position : Nat) {i : Nat} {b : Byte}
    (hb : (written words trailing)[i]? = some b)
    (hnot : ∀ span ∈ spansOf position words, ¬ span.Covers (position + i)) :
    b = Byte.space ∨ b = Byte.quote ∧ position + i ∈ quotesOf position words := by
  induction words generalizing position i with
  | nil =>
    exact .inl (List.eq_of_mem_replicate (List.mem_of_getElem? hb))
  | cons spaced words ih =>
    obtain ⟨hfirst, hothers⟩ := List.forall_mem_cons.1 hnot
    rw [written] at hb
    by_cases hi : i < spaced.bytes.length
    · rw [List.getElem?_append_left hi] at hb
      rcases spaced.eq_of_not_covers hb hfirst with hspace | ⟨hquote, hmem⟩
      · exact .inl hspace
      · exact .inr ⟨hquote, List.mem_append_left _ hmem⟩
    · obtain ⟨k, rfl⟩ := Nat.exists_eq_add_of_le (Nat.not_lt.1 hi)
      rw [List.getElem?_append_right (Nat.le_add_right _ _), Nat.add_sub_cancel_left] at hb
      rw [← Nat.add_assoc] at hothers ⊢
      rcases ih _ hb hothers with hspace | ⟨hquote, hmem⟩
      · exact .inl hspace
      · exact .inr ⟨hquote, List.mem_append_right _ hmem⟩

/-! ## Lines -/

namespace Layout

theorem splitWords_bytes (layout : Layout) : splitWords layout.bytes = .ok layout.spans :=
  splitFrom_written layout.apart 0 []

theorem exists_of_splitWords {line : Bytes} {spans : List Span} (h : splitWords line = .ok spans) :
    ∃ layout : Layout, layout.bytes = line ∧ spans = layout.spans := by
  obtain ⟨found, hreads, hspans⟩ := exists_reads_of_splitFrom h
  cases hreads with
  | gap words trailing apart => exact ⟨⟨words, trailing, apart⟩, rfl, hspans⟩

theorem bytes_inj {a b : Layout} (h : a.bytes = b.bytes) : a = b := by
  obtain ⟨hwords, htrailing⟩ := written_inj a.apart b.apart h
  cases a
  cases b
  cases hwords
  cases htrailing
  rfl

theorem slice_spans (layout : Layout) (rest : Bytes) :
    layout.spans.map (·.slice (layout.bytes ++ rest)) = layout.contents :=
  slice_spansOf layout.words layout.trailing [] rest

end Layout

/-- **The splitter takes exactly the lines of words, and cuts them in the only way.** Such a line
has at least one space between neighbours and any number at its ends; a word is one byte or more,
none of them a space or a quote, or any bytes but quotes between two quotes. The line has one
layout only, and the spans are those of its contents, in order, quotes excluded; all other bytes are
spaces and the quotes of the words. Every other line is refused for its quotes. -/
theorem splitWords_eq_ok_iff_layout (bytes : Bytes) :
    (∀ spans, splitWords bytes = .ok spans ↔
      ∃ layout : Layout, layout.bytes = bytes ∧ spans = layout.spans) ∧
      (∀ layout other : Layout, layout.bytes = bytes → other.bytes = bytes → layout = other) ∧
      (∀ layout : Layout, layout.bytes = bytes →
        layout.spans.map (·.slice bytes) = layout.contents ∧
          ∀ i b, bytes[i]? = some b → (∀ span ∈ layout.spans, ¬ span.Covers i) →
            b = Byte.space ∨ b = Byte.quote ∧ i ∈ layout.quotes) ∧
      ((∀ layout : Layout, layout.bytes ≠ bytes) →
        splitWords bytes = .error .unbalancedQuotes) := by
  refine ⟨fun spans => ⟨Layout.exists_of_splitWords, ?_⟩, ?_, ?_, ?_⟩
  · rintro ⟨layout, rfl, rfl⟩
    exact layout.splitWords_bytes
  · intro layout other hlayout hother
    exact Layout.bytes_inj (hlayout.trans hother.symm)
  · rintro layout rfl
    have hslices := layout.slice_spans []
    rw [List.append_nil] at hslices
    refine ⟨hslices, fun i b hb hnot => ?_⟩
    rw [← Nat.zero_add i] at hnot ⊢
    exact eq_of_not_covers 0 hb hnot
  · intro hnone
    cases hsplit : splitWords bytes with
    | ok spans =>
      obtain ⟨layout, hbytes, _⟩ := Layout.exists_of_splitWords hsplit
      exact absurd hbytes (hnone layout)
    | error fault => rw [eq_unbalancedQuotes_of_splitFrom hsplit]

/-- A line with spaces at its ends, a space between quotes, a word that is empty and another that
holds an apostrophe; and a quote behind a bare word, with which no line of words can be written. -/
theorem splitWords_eq_ok_iff_layout_quotes :
    let whole := Utf8.encode " set \"a b\"  \"\" x' "
    let broken := Utf8.encode "set a\"b\""
    (∃ layout : Layout, layout.bytes = whole ∧ splitWords whole = .ok layout.spans ∧
      layout.spans.map (·.slice whole) = ["set", "a b", "", "x'"].map Utf8.encode ∧
      (∀ other : Layout, other.bytes = whole → layout = other) ∧
      ∀ i b, whole[i]? = some b → (∀ span ∈ layout.spans, ¬ span.Covers i) →
        b = Byte.space ∨ b = Byte.quote ∧ i ∈ [5, 9, 12, 13]) ∧
      (∀ layout : Layout, layout.bytes ≠ broken) ∧
      splitWords broken = .error .unbalancedQuotes := by
  intro whole broken
  let layout : Layout :=
    { words :=
        [⟨1, .bare (Utf8.encode "set") (by decide +kernel) (by decide +kernel)⟩,
          ⟨1, .quoted (Utf8.encode "a b") (by decide +kernel)⟩,
          ⟨2, .quoted [] nofun⟩,
          ⟨1, .bare (Utf8.encode "x'") (by decide +kernel) (by decide +kernel)⟩]
      trailing := 1
      apart := by decide }
  have hbytes : layout.bytes = whole := by decide +kernel
  obtain ⟨hsplit, honly, hlayout, _⟩ := splitWords_eq_ok_iff_layout whole
  obtain ⟨hslices, houtside⟩ := hlayout layout hbytes
  have hnone : ∀ other : Layout, other.bytes ≠ broken := by
    intro other hother
    have hok := ((splitWords_eq_ok_iff_layout broken).1 _).2 ⟨other, hother, rfl⟩
    have herror : splitWords broken = .error .unbalancedQuotes := by rfl
    rw [herror] at hok
    cases hok
  refine ⟨⟨layout, hbytes, (hsplit _).2 ⟨layout, hbytes, rfl⟩, ?_, ?_, ?_⟩, hnone, ?_⟩
  · exact hslices
  · exact fun other hother => honly layout other hbytes hother
  · exact houtside
  · exact (splitWords_eq_ok_iff_layout broken).2.2.2 hnone

end Inline

end LogStore
