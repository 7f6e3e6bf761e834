import LogStore.Proofs.Request.FlushPoints
import LogStore.Proofs.Request.Stability
import LogStore.Proofs.Request.Words

/-!
# The limit on lines when reads are bounded

The limit is tested only on a line that has not ended, so the scanner by itself accepts lines of any
length. What bounds them is how the bytes came. A reader asks for more only when its bytes do not
tell yet, and then no line of theirs is overdue; so a line that ends later has at most a chunk more
than may wait (`Frame.mem_lines_append`). Whatever is left behind a request came with the last
chunk. Both together are `Bytes.Gathered`: a reader keeps it whatever it answers
(`Reader.gathered_read`), so it holds in any run over any source of bounded reads
(`Reader.lines_served`).

Sources may go on without end here: a `Feed` answers every attempt, and a call over it answers or
goes on asking (`Reader.asks_or_answers`). A source that ends is one that reports its end from then
on, and the calls over it are among those that are considered (`Reader.exists_served_calls`).
-/

namespace LogStore

/-! ## The lines of a multibulk request -/

namespace Multibulk

theorem bulkLines_bytesOf (position : Nat) (bulks : List Bulk) :
    bulkLines bulks.length position (bytesOf bulks) =
      bulks.map fun bulk => bulk.numeral ++ [Byte.carriageReturn] := by
  induction bulks generalizing position with
  | nil => rfl
  | cons bulk bulks ih =>
    have hbytes : bytesOf (bulk :: bulks) = bulk.bytes ++ bytesOf bulks := List.flatMap_cons
    have hscan : scanBulk position (bulk.bytes ++ bytesOf bulks) =
        .found (bulk.span position, bytesOf bulks) :=
      scanBulk_eq_found_iff_bulk.2 ⟨bulk, rfl, rfl⟩
    have hline : bulkLine? (bulk.bytes ++ bytesOf bulks) =
        some (bulk.numeral ++ [Byte.carriageReturn]) := by
      have hnumeral := lineFeed_notMem_of_signed (.unsigned bulk.denotes)
      have hended : endedLine? (bulk.numeral ++ Bytes.lineEnd ++ bulk.payload ++ Bytes.lineEnd ++
          bytesOf bulks) = some (bulk.numeral ++ [Byte.carriageReturn]) :=
        endedLine?_eq_some_iff.2
          ⟨hnumeral, bulk.payload ++ Bytes.lineEnd ++ bytesOf bulks, by simp⟩
      exact hended
    rw [List.length_cons, bulkLines, hbytes, hline, hscan, List.map_cons]
    exact congrArg _ (ih _)

/-- The lines of a multibulk request are those of its count and its lengths. -/
theorem Draft.lines_bytes {draft : Draft} (h : draft.Finished) :
    Frame.lines draft.bytes = (draft.numeral ++ [Byte.carriageReturn]) ::
      draft.bulks.map fun bulk => bulk.numeral ++ [Byte.carriageReturn] := by
  have hnumeral := lineFeed_notMem_of_signed draft.denotes
  have hcount : readCount? (draft.numeral ++ [Byte.carriageReturn]) = some draft.bulks.length := by
    rw [h]
    exact readCount?_eq_some_iff.2 ⟨_, _, rfl, draft.denotes, draft.limits, rfl⟩
  have hbytes : draft.bytes = Byte.star ::
      (draft.numeral ++ [Byte.carriageReturn] ++ Byte.lineFeed :: bytesOf draft.bulks) := by
    simp [Draft.bytes]
  rw [hbytes, Frame.lines, if_pos rfl, lines, splitLine?_append hnumeral]
  dsimp only
  rw [hcount, ← bulkLines_bytesOf]

end Multibulk

/-! ## Bytes that arrive behind an unfinished line -/

variable {bytes more line : Bytes}

theorem length_lt_of_endedLine? (h : endedLine? bytes = some line) :
    line.length < bytes.length := by
  obtain ⟨_, rest, rfl⟩ := endedLine?_eq_some_iff.1 h
  rw [List.length_append, List.length_cons]
  omega

/-- A line that was waited for has at most the limit, and what came then. -/
theorem endedLine?_append_cases {tooLong : Fault}
    (hscan : scanLine tooLong bytes ≠ .malformed tooLong)
    (h : endedLine? (bytes ++ more) = some line) :
    endedLine? bytes = some line ∨ line.length < maxLineLength + more.length := by
  by_cases hmem : Byte.lineFeed ∈ bytes
  · obtain ⟨first, rest, hbytes, hfirst⟩ := List.eq_append_cons_of_mem hmem
    have hended : endedLine? bytes = some first :=
      endedLine?_eq_some_iff.2 ⟨hfirst, rest, hbytes⟩
    rw [endedLine?_append hended more] at h
    cases h
    exact .inl hended
  · have hshort : ¬ maxLineLength < bytes.length := fun hlong =>
      hscan (scanLine_of_long hmem hlong)
    have hlength := length_lt_of_endedLine? h
    rw [List.length_append] at hlength
    right
    omega

namespace Multibulk

theorem length_lt_of_bulkLine? (h : bulkLine? bytes = some line) : line.length < bytes.length := by
  cases bytes with
  | nil => cases h
  | cons b header =>
    rw [bulkLine?] at h
    by_cases hb : b = Byte.dollar
    · rw [if_pos hb] at h
      have hlength := length_lt_of_endedLine? h
      rw [List.length_cons]
      omega
    · rw [if_neg hb] at h
      cases h

theorem length_lt_of_mem_bulkLines {count position : Nat}
    (h : line ∈ bulkLines count position bytes) : line.length < bytes.length := by
  induction count generalizing position bytes with
  | zero => cases h
  | succ count ih =>
    rw [bulkLines] at h
    rcases List.mem_append.1 h with hfirst | hlater
    · exact length_lt_of_bulkLine? (Option.mem_toList.1 hfirst)
    · split at hlater
      · rename_i payload rest hbulk
        obtain ⟨taken, rfl, _, _⟩ := exists_of_scanBulk_eq_found hbulk
        have hrest := ih hlater
        rw [List.length_append]
        omega
      · cases hlater

theorem bulkLine?_append_cases {position : Nat} (hscan : scanBulk position bytes = .incomplete)
    (h : bulkLine? (bytes ++ more) = some line) :
    bulkLine? bytes = some line ∨ line.length < maxLineLength + more.length := by
  cases bytes with
  | nil =>
    have hlength := length_lt_of_bulkLine? h
    rw [List.nil_append] at hlength
    right
    omega
  | cons b header =>
    by_cases hb : b = Byte.dollar
    · rw [List.cons_append, bulkLine?, if_pos hb] at h
      rw [bulkLine?, if_pos hb]
      have hline : scanLine .badLength header ≠ .malformed .badLength := by
        intro hline
        rw [scanBulk, if_pos hb, hline] at hscan
        cases hscan
      exact endedLine?_append_cases hline h
    · rw [scanBulk, if_neg hb] at hscan
      cases hscan

/-- A bulk string that was waited for leaves nothing but bytes that came then. -/
theorem length_rest_le_of_scanBulk {position : Nat} {payload : Span} {rest : Bytes}
    (hscan : scanBulk position bytes = .incomplete)
    (h : scanBulk position (bytes ++ more) = .found (payload, rest)) :
    rest.length ≤ more.length := by
  obtain ⟨taken, htaken, _, hlocal⟩ := exists_of_scanBulk_eq_found h
  rcases List.append_eq_append_iff.1 htaken with ⟨tail, rfl, rfl⟩ | ⟨behind, rfl, rfl⟩
  · rw [List.length_append]
    omega
  · rw [hlocal] at hscan
    cases hscan

theorem mem_bulkLines_append {count position : Nat} {payloads : List Span}
    (hscan : scanBulks count position payloads bytes = .incomplete)
    (h : line ∈ bulkLines count position (bytes ++ more)) :
    line ∈ bulkLines count position bytes ∨ line.length < maxLineLength + more.length := by
  induction count generalizing position payloads bytes with
  | zero => cases h
  | succ count ih =>
    rw [bulkLines] at h ⊢
    rw [scanBulks] at hscan
    cases hbulk : scanBulk position bytes with
    | malformed fault =>
      rw [hbulk] at hscan
      cases hscan
    | found value =>
      obtain ⟨payload, rest⟩ := value
      obtain ⟨first, hfirst⟩ := exists_bulkLine?_of_found hbulk
      rw [hbulk] at hscan
      rw [scanBulk_append hbulk more, bulkLine?_append hfirst more] at h
      rw [hfirst]
      rcases List.mem_append.1 h with hmem | hmem
      · exact .inl (List.mem_append_left _ hmem)
      · exact (ih hscan hmem).imp_left (List.mem_append_right _)
    | incomplete =>
      rcases List.mem_append.1 h with hmem | hmem
      · rcases bulkLine?_append_cases hbulk (Option.mem_toList.1 hmem) with hline | hline
        · exact .inl (List.mem_append_left _ (Option.mem_toList.2 hline))
        · exact .inr hline
      · -- The lines behind the bulk string that was waited for came as a whole.
        split at hmem
        · rename_i payload rest hfound
          have hrest := length_rest_le_of_scanBulk hbulk hfound
          have hline := length_lt_of_mem_bulkLines hmem
          right
          omega
        · cases hmem

theorem length_lt_of_mem_lines (h : line ∈ lines bytes) : line.length < bytes.length := by
  rcases splitLine?_cases bytes with ⟨_, hsplit⟩ | ⟨first, rest, _, rfl, hsplit⟩
  · rw [lines, hsplit] at h
    cases h
  · rw [lines, hsplit] at h
    rw [List.length_append, List.length_cons]
    rcases List.mem_cons.1 h with rfl | hlater
    · omega
    · split at hlater
      · cases hlater
      · have hline := length_lt_of_mem_bulkLines hlater
        omega

theorem mem_lines_append (hscan : scan bytes = .incomplete) (h : line ∈ lines (bytes ++ more)) :
    line ∈ lines bytes ∨ line.length < maxLineLength + more.length := by
  rcases splitLine?_cases bytes with ⟨hmem, hsplit⟩ | ⟨first, rest, hmem, rfl, hsplit⟩
  · have hshort : ¬ maxLineLength < bytes.length := by
      intro hlong
      rw [scan, scanLine_of_long hmem hlong] at hscan
      cases hscan
    have hline := length_lt_of_mem_lines h
    rw [List.length_append] at hline
    right
    omega
  · rw [scan, scanLine, hsplit] at hscan
    rw [List.append_assoc, List.cons_append, lines, splitLine?_append hmem] at h
    rw [lines, hsplit]
    dsimp only at hscan h ⊢
    rcases List.mem_cons.1 h with rfl | hlater
    · exact .inl List.mem_cons_self
    · cases hcount : readCount? first with
      | none =>
        rw [hcount] at hlater
        cases hlater
      | some count =>
        rw [hcount] at hscan hlater
        exact (mem_bulkLines_append hscan hlater).imp_left (List.mem_cons_of_mem first)

end Multibulk

namespace Frame

theorem length_lt_of_mem_lines (h : line ∈ lines bytes) : line.length < bytes.length := by
  cases bytes with
  | nil => cases h
  | cons b rest =>
    rw [lines] at h
    by_cases hb : b = Byte.star
    · rw [if_pos hb] at h
      have hline := Multibulk.length_lt_of_mem_lines h
      rw [List.length_cons]
      omega
    · rw [if_neg hb] at h
      exact length_lt_of_endedLine? (Option.mem_toList.1 h)

/-- Behind bytes that do not tell yet, a line is one that had ended, or it has at most the limit and
what came then. -/
theorem mem_lines_append (hscan : scan bytes = .incomplete) (h : line ∈ lines (bytes ++ more)) :
    line ∈ lines bytes ∨ line.length < maxLineLength + more.length := by
  cases bytes with
  | nil =>
    have hline := length_lt_of_mem_lines h
    rw [List.nil_append] at hline
    right
    omega
  | cons b rest =>
    rw [scan] at hscan
    rw [List.cons_append, lines] at h
    rw [lines]
    by_cases hb : b = Byte.star
    · rw [if_pos hb] at hscan h ⊢
      exact Multibulk.mem_lines_append hscan h
    · rw [if_neg hb] at hscan h ⊢
      have hline : scanLine .lineTooLong (b :: rest) ≠ .malformed .lineTooLong := by
        intro hline
        rw [Inline.scan, hline] at hscan
        cases hscan
      exact (endedLine?_append_cases hline (Option.mem_toList.1 h)).imp_left Option.mem_toList.2

/-- A request that was waited for leaves nothing but bytes that came then. -/
theorem length_drop_le_of_scan {frame : Frame} (hscan : scan bytes = .incomplete)
    (h : scan (bytes ++ more) = .found frame) :
    ((bytes ++ more).drop frame.length).length ≤ more.length := by
  obtain ⟨raw, rest, hraw, hlength, hlocal⟩ := exists_of_scan_eq_found h
  rw [hraw, ← hlength, List.drop_left]
  rcases List.append_eq_append_iff.1 hraw with ⟨tail, rfl, rfl⟩ | ⟨behind, rfl, rfl⟩
  · rw [List.length_append]
    omega
  · rw [hlocal] at hscan
    cases hscan

end Frame

/-! ## What a reader of bounded reads holds -/

/-- The most that a line of an accepted request can take, with its line feed. -/
def Bytes.LineBounded (line : Bytes) : Prop :=
  line.length + 1 ≤ maxLineLength + Source.chunkSize

/-- The bytes before the last chunk did not tell yet, and no line of theirs was beyond the bound. -/
def Bytes.Gathered (bytes : Bytes) : Prop :=
  ∃ old new, bytes = old ++ new ∧ new.length ≤ Source.chunkSize ∧
    Frame.scan old = .incomplete ∧ ∀ line ∈ Frame.lines old, line.LineBounded

namespace Bytes.Gathered

theorem of_length_le (h : bytes.length ≤ Source.chunkSize) : bytes.Gathered :=
  ⟨[], bytes, rfl, h, rfl, fun _ hmem => nomatch hmem⟩

theorem lineBounded (h : bytes.Gathered) : ∀ line ∈ Frame.lines bytes, line.LineBounded := by
  obtain ⟨old, new, rfl, hnew, hscan, hlines⟩ := h
  intro line hline
  rcases Frame.mem_lines_append hscan hline with hold | hlength
  · exact hlines line hold
  · rw [LineBounded]
    omega

/-- Bytes are asked for only when those at hand do not tell yet. -/
theorem append (h : bytes.Gathered) (hscan : Frame.scan bytes = .incomplete)
    (hmore : more.length ≤ Source.chunkSize) : Gathered (bytes ++ more) :=
  ⟨bytes, more, rfl, hmore, hscan, h.lineBounded⟩

theorem drop {frame : Frame} (h : bytes.Gathered) (hfound : Frame.scan bytes = .found frame) :
    Gathered (bytes.drop frame.length) := by
  obtain ⟨old, new, rfl, hnew, hscan, _⟩ := h
  exact of_length_le (Nat.le_trans (Frame.length_drop_le_of_scan hscan hfound) hnew)

theorem lineBounded_cut {frame : Frame} (h : bytes.Gathered)
    (hfound : Frame.scan bytes = .found frame) :
    ∀ line ∈ Frame.lines (frame.cut bytes).raw, line.LineBounded := by
  rw [Frame.lines_raw_cut hfound]
  exact h.lineBounded

end Bytes.Gathered

namespace Reader

variable {reader next waiting : Reader} {request : Request} {fault : Fault} {source : Source}

/-- The invariant: the buffer is gathered, and so were the bytes of the request kept ahead. -/
structure Gathered (reader : Reader) : Prop where
  buffer : reader.buffer.Gathered
  ahead : ∀ request ∈ reader.aheadRequests, ∀ line ∈ Frame.lines request.raw, line.LineBounded

theorem gathered_fresh : Gathered {} where
  buffer := .of_length_le (Nat.zero_le _)
  ahead _ hmem := nomatch hmem

theorem gathered_handOut (first : Request) {behind : Bytes} (h : behind.Gathered) :
    (handOut first behind).2.Gathered := by
  unfold handOut
  split
  · exact ⟨h, fun _ hmem => nomatch hmem⟩
  · split
    · exact ⟨h, fun _ hmem => nomatch hmem⟩
    · exact ⟨h, fun _ hmem => nomatch hmem⟩
    · rename_i frame hscan
      refine ⟨h.drop hscan, fun request hmem => ?_⟩
      rw [List.mem_singleton.1 hmem]
      exact h.lineBounded_cut hscan

theorem gathered_of_poll_eq_request (h : reader.Gathered)
    (hpoll : reader.poll = some (.ok request, next)) :
    next.Gathered ∧ ∀ line ∈ Frame.lines request.raw, line.LineBounded := by
  obtain ⟨first, behind, rfl, rfl, hcases⟩ := poll_eq_request_cases hpoll
  rw [Request.raw_eq_of_content (content_handOut first behind)]
  rcases hcases with ⟨hahead, rfl⟩ | ⟨frame, _, hscan, rfl, rfl⟩
  · have hmem : first ∈ reader.aheadRequests := by simp [aheadRequests, hahead]
    exact ⟨gathered_handOut first h.buffer, h.ahead first hmem⟩
  · exact ⟨gathered_handOut _ (h.buffer.drop hscan), h.buffer.lineBounded_cut hscan⟩

theorem gathered_of_poll_eq_fault (h : reader.Gathered)
    (hpoll : reader.poll = some (.error fault, next)) : next.Gathered := by
  obtain ⟨rfl, _⟩ := poll_eq_fault_cases hpoll
  exact ⟨h.buffer, fun _ hmem => nomatch hmem⟩

theorem gathered_receive (h : reader.Gathered) (hpoll : reader.poll = none)
    (hmore : more.length ≤ Source.chunkSize) : (reader.receive more).Gathered :=
  ⟨h.buffer.append (of_poll_eq_none hpoll).2 hmore, h.ahead⟩

/-- One call over bounded reads keeps the invariant, and bounds the lines of what it hands out. -/
theorem gathered_read (h : reader.Gathered) (source : Source)
    (hsmall : ∀ delivery ∈ source, delivery.bytes.length ≤ Source.chunkSize) :
    (reader.read source).2.1.Gathered ∧
      ∀ request, (reader.read source).1 = .ok (some request) →
        ∀ line ∈ Frame.lines request.raw, line.LineBounded := by
  fun_induction read reader source with
  | case1 source reader request next hpoll =>
    obtain ⟨hnext, hlines⟩ := gathered_of_poll_eq_request h hpoll
    exact ⟨hnext, fun _ heq => by cases heq; exact hlines⟩
  | case2 source reader fault next hpoll =>
    exact ⟨gathered_of_poll_eq_fault h hpoll, fun _ heq => by cases heq⟩
  | case3 reader hpoll => exact ⟨h, fun request heq => absurd heq (atEnd_ne_request reader request)⟩
  | case4 reader hpoll message rest => exact ⟨h, fun _ heq => by cases heq⟩
  | case5 reader hpoll rest =>
    exact ⟨h, fun request heq => absurd heq (atEnd_ne_request reader request)⟩
  | case6 reader hpoll b bytes rest ih =>
    obtain ⟨hfirst, hrest⟩ := List.forall_mem_cons.1 hsmall
    exact ih (gathered_receive h hpoll hfirst) hrest

end Reader

/-! ## Sources without end -/

/-- What a source answers to every attempt. -/
abbrev Feed := Nat → Delivery

/-- The answers to `count` attempts, those before `start` left out. -/
def Feed.stretch (feed : Feed) (start count : Nat) : Source :=
  (List.range' start count).map feed

/-- A source that has ended reports its end to every further attempt. -/
def Source.goOn (source : Source) : Feed :=
  fun n => source.getD n .ended

namespace Feed

variable {feed : Feed}

theorem stretch_succ (feed : Feed) (start count : Nat) :
    feed.stretch start (count + 1) = feed start :: feed.stretch (start + 1) count := rfl

@[simp]
theorem length_stretch (feed : Feed) (start count : Nat) :
    (feed.stretch start count).length = count := by
  simp [stretch]

theorem stretch_isPrefix (feed : Feed) (start : Nat) {k n : Nat} (h : k ≤ n) :
    feed.stretch start k <+: feed.stretch start n := by
  obtain ⟨more, rfl⟩ := Nat.exists_eq_add_of_le h
  rw [stretch, stretch, ← List.range'_append_1, List.map_append]
  exact List.prefix_append _ _

theorem stretch_of_isPrefix {start count : Nat} {taken : Source}
    (h : taken <+: feed.stretch start count) : feed.stretch start taken.length = taken := by
  have hle : taken.length ≤ count := by simpa using h.length_le
  have hshort := stretch_isPrefix feed start hle
  exact (List.prefix_of_prefix_length_le hshort h (by simp)).eq_of_length (by simp)

/-- What is left of a source with an end, and then the end, are what its feed goes on with. -/
theorem stretch_goOn (origin : Source) (start : Nat) :
    origin.goOn.stretch start (origin.length - start + 1) = origin.drop start ++ [.ended] := by
  induction hleft : origin.length - start generalizing start with
  | zero =>
    have hle : origin.length ≤ start := by omega
    have hended : origin.goOn start = .ended := by simp [Source.goOn, hle]
    rw [stretch_succ, hended, List.drop_eq_nil_of_le hle]
    rfl
  | succ left ih =>
    have hlt : start < origin.length := by omega
    have hnext : origin.goOn start = origin[start] := by simp [Source.goOn, hlt]
    rw [stretch_succ, hnext, ih (start + 1) (by omega), List.drop_eq_getElem_cons hlt]
    rfl

theorem exists_of_mem_stretch {start count : Nat} {delivery : Delivery}
    (h : delivery ∈ feed.stretch start count) : ∃ n, feed n = delivery := by
  obtain ⟨n, _, hn⟩ := List.mem_map.1 h
  exact ⟨n, hn⟩

end Feed

namespace Reader

variable {reader next waiting : Reader} {feed : Feed} {given : Source} {answer : Answer}

/-- A call asks for the deliveries `given`, and no more, and then answers. -/
def Answers (reader : Reader) (given : Source) (answer : Answer) (next : Reader) : Prop :=
  ∀ rest, reader.read (given ++ rest) = (answer, next, rest)

/-- A call that was given these deliveries goes on from `waiting`, and asks for another one. -/
def Asks (reader : Reader) (given : Source) (waiting : Reader) : Prop :=
  waiting.needsBytes ∧ ∀ rest, reader.read (given ++ rest) = waiting.read rest

/-- Calls of a fresh reader can have these answers, which took the first `n` deliveries, and leave
this reader. -/
inductive Served (feed : Feed) : List Answer → Reader → (n : Nat) → Prop
  | fresh : Served feed [] {} 0
  | call {answers : List Answer} {reader next : Reader} {answer : Answer} {n count : Nat}
      (h : Served feed answers reader n)
      (hanswer : reader.Answers (feed.stretch n count) answer next) :
      Served feed (answers ++ [answer]) next (n + count)

/-- Bytes that a call asks for are received before it goes on. -/
theorem Answers.data (hpoll : reader.poll = none) {piece : Bytes} (hne : piece ≠ [])
    (h : (reader.receive piece).Answers given answer next) :
    reader.Answers (.data piece :: given) answer next := by
  intro rest
  rw [List.cons_append, read_data hpoll hne]
  exact h rest

theorem answers_failure (hpoll : reader.poll = none) (message : String) :
    reader.Answers [.failure message] (.error (.unreadable message)) reader := by
  intro rest
  rw [List.singleton_append, read, hpoll]

theorem answers_ended (hpoll : reader.poll = none) :
    reader.Answers [.ended] reader.atEnd reader := by
  intro rest
  rw [List.singleton_append, read, hpoll]

/-- As long as a call has not answered, it asks on. -/
theorem asks_or_answers (reader : Reader) (given : Source) :
    (∃ waiting, reader.Asks given waiting) ∨
      ∃ taken left answer next, given = taken ++ left ∧ reader.Answers taken answer next := by
  induction given generalizing reader with
  | nil =>
    cases hneeds : reader.needsBytes with
    | true => exact .inl ⟨reader, hneeds, fun _ => rfl⟩
    | false =>
      obtain ⟨answer, next, hanswer⟩ := (needsBytes_eq_false_iff reader).1 hneeds
      exact .inr ⟨[], [], answer, next, rfl, hanswer⟩
  | cons delivery given ih =>
    cases hpoll : reader.poll with
    | some value =>
      have hneeds : reader.needsBytes = false := by simp [needsBytes, hpoll]
      obtain ⟨answer, next, hanswer⟩ := (needsBytes_eq_false_iff reader).1 hneeds
      exact .inr ⟨[], delivery :: given, answer, next, rfl, hanswer⟩
    | none =>
      cases delivery with
      | failure message =>
        exact .inr ⟨[_], given, _, reader, rfl, answers_failure hpoll message⟩
      | data piece =>
        by_cases hne : piece = []
        · subst hne
          exact .inr ⟨[_], given, _, reader, rfl, answers_ended hpoll⟩
        · rcases ih (reader.receive piece) with ⟨waiting, hneeds, hread⟩ | ⟨taken, left, hanswers⟩
          · refine .inl ⟨waiting, hneeds, fun rest => ?_⟩
            rw [List.cons_append, read_data hpoll hne, hread]
          · obtain ⟨answer, next, rfl, hanswers⟩ := hanswers
            exact .inr ⟨_ :: taken, left, answer, next, rfl, hanswers.data hpoll hne⟩

/-- What a call over a source answers, it answers with the deliveries that it took, and the end of
the source if it came to that. -/
theorem exists_answers_of_read (reader : Reader) (source : Source) :
    ∃ taken, taken <+: source ++ [.ended] ∧
      reader.Answers taken (reader.read source).1 (reader.read source).2.1 ∧
      (reader.read source).2.2 = source.drop taken.length := by
  fun_induction read reader source with
  | case1 source reader request next hpoll =>
    exact ⟨[], List.nil_prefix, fun rest => read_of_poll_eq_request hpoll rest, rfl⟩
  | case2 source reader fault next hpoll =>
    exact ⟨[], List.nil_prefix, fun rest => read_of_poll_eq_fault hpoll rest, rfl⟩
  | case3 reader hpoll => exact ⟨[.ended], List.prefix_refl _, answers_ended hpoll, rfl⟩
  | case4 reader hpoll message rest =>
    exact ⟨[_], ⟨rest ++ [.ended], rfl⟩, answers_failure hpoll message, rfl⟩
  | case5 reader hpoll rest =>
    exact ⟨[_], ⟨rest ++ [.ended], rfl⟩, answers_ended hpoll, rfl⟩
  | case6 reader hpoll b bytes rest ih =>
    obtain ⟨taken, htaken, hanswers, hrest⟩ := ih
    refine ⟨.data (b :: bytes) :: taken, ?_, hanswers.data hpoll (List.cons_ne_nil b bytes), hrest⟩
    rw [List.cons_append]
    exact (List.prefix_cons_inj _).2 htaken

/-- All calls over a source with an end are calls over the feed that goes on with it. -/
theorem exists_served_calls (origin : Source) (k : Nat) :
    ∃ n, Served origin.goOn (calls origin k).answers (calls origin k).reader n ∧
      (calls origin k).source = origin.drop n := by
  induction k with
  | zero => exact ⟨0, .fresh, rfl⟩
  | succ k ih =>
    obtain ⟨n, hserved, hsource⟩ := ih
    obtain ⟨taken, htaken, hanswers, hrest⟩ :=
      exists_answers_of_read (calls origin k).reader (calls origin k).source
    rw [hsource, ← Feed.stretch_goOn] at htaken
    rw [← Feed.stretch_of_isPrefix htaken] at hanswers
    refine ⟨n + taken.length, hserved.call hanswers, hrest.trans ?_⟩
    rw [hsource, List.drop_drop]

/-! ## Runs over bounded reads -/

theorem Served.gathered {answers : List Answer} {n : Nat} (h : Served feed answers reader n)
    (hsmall : ∀ i, (feed i).bytes.length ≤ Source.chunkSize) :
    reader.Gathered ∧ ∀ request, .ok (some request) ∈ answers →
      ∀ line ∈ Frame.lines request.raw, line.LineBounded := by
  induction h with
  | fresh => exact ⟨gathered_fresh, fun _ hmem => nomatch hmem⟩
  | @call answers reader next answer n count h hanswer ih =>
    obtain ⟨hreader, hlines⟩ := ih
    have hgiven : ∀ delivery ∈ feed.stretch n count ++ [],
        delivery.bytes.length ≤ Source.chunkSize := by
      intro delivery hmem
      rw [List.append_nil] at hmem
      obtain ⟨i, rfl⟩ := Feed.exists_of_mem_stretch hmem
      exact hsmall i
    obtain ⟨hnext, hrequest⟩ := gathered_read hreader _ hgiven
    rw [hanswer []] at hnext hrequest
    refine ⟨hnext, fun request hmem => ?_⟩
    rcases List.mem_append.1 hmem with hbefore | hlast
    · exact hlines request hbefore
    · exact hrequest request (List.mem_singleton.1 hlast).symm

/-- A reader that asks has no line that is overdue. -/
theorem Asks.not_overdue (h : reader.Asks given waiting) (fault : Fault) :
    ¬ Frame.Overdue waiting.buffer fault := by
  intro hoverdue
  obtain ⟨_, hscan⟩ := of_poll_eq_none (Option.isNone_iff_eq_none.1 h.1)
  rw [Frame.scan_of_overdue hoverdue] at hscan
  cases hscan

theorem poll_of_short {buffer : Bytes} (hmem : Byte.lineFeed ∉ buffer)
    (hstar : buffer.head? ≠ some Byte.star) (hshort : buffer.length ≤ maxLineLength) :
    ({ buffer } : Reader).poll = none := by
  have hscan : Frame.scan buffer = .incomplete := by
    by_cases hne : buffer = []
    · rw [hne]
      rfl
    · have hline : scanLine .lineTooLong buffer = .incomplete := by
        rw [scanLine, splitLine?_eq_none hmem]
        exact if_neg (Nat.not_lt.2 hshort)
      rw [Inline.scan_of_head_ne_star hne hstar, Inline.scan, hline]
  simp only [poll, hscan]

theorem answers_of_long {buffer : Bytes} (hmem : Byte.lineFeed ∉ buffer)
    (hstar : buffer.head? ≠ some Byte.star) (hlong : maxLineLength < buffer.length) :
    ({ buffer } : Reader).Answers [] (.error (.malformed .lineTooLong)) { buffer } := by
  have hscan := Frame.scan_of_overdue (.inline ⟨hmem, hlong⟩ hstar)
  have hpoll : ({ buffer } : Reader).poll = some (.error .lineTooLong, { buffer }) := by
    simp only [poll, hscan]
  exact fun rest => read_of_poll_eq_fault hpoll rest

/-- Every piece takes some of the room that a line has; the induction is on this room. -/
theorem exists_answers_lineTooLong
    (hdata : ∀ n, ∃ piece, feed n = .data piece ∧ piece ≠ [] ∧ Byte.lineFeed ∉ piece)
    {buffer : Bytes} (n : Nat) (hmem : Byte.lineFeed ∉ buffer)
    (hstar : (buffer ++ (feed n).bytes).head? ≠ some Byte.star) :
    ∃ count next, ({ buffer } : Reader).Answers (feed.stretch n count)
      (.error (.malformed .lineTooLong)) next := by
  obtain ⟨room, hroom⟩ : ∃ room, maxLineLength < buffer.length + room :=
    ⟨maxLineLength + 1, by omega⟩
  have hhead : ∀ {buffer more : Bytes}, (buffer ++ more).head? ≠ some Byte.star →
      buffer.head? ≠ some Byte.star := by
    intro buffer more hwhole
    cases buffer with
    | nil => exact nofun
    | cons b rest => exact hwhole
  induction room generalizing buffer n with
  | zero => exact ⟨0, _, answers_of_long hmem (hhead hstar) hroom⟩
  | succ room ih =>
    by_cases hlong : maxLineLength < buffer.length
    · exact ⟨0, _, answers_of_long hmem (hhead hstar) hlong⟩
    · obtain ⟨piece, hpiece, hne, hpieceMem⟩ := hdata n
      have hpoll := poll_of_short hmem (hhead hstar) (Nat.not_lt.1 hlong)
      have hpos := List.length_pos_iff.2 hne
      rw [hpiece, Delivery.bytes] at hstar
      have hnext : (buffer ++ piece ++ (feed (n + 1)).bytes).head? ≠ some Byte.star := by
        obtain ⟨b, rest, hcons⟩ :=
          List.exists_cons_of_ne_nil (List.append_ne_nil_of_right_ne_nil buffer hne)
        rw [hcons] at hstar ⊢
        exact hstar
      obtain ⟨count, next, hanswers⟩ := ih (n + 1) (by simp [hmem, hpieceMem]) hnext
        (by rw [List.length_append]; omega)
      refine ⟨count + 1, next, ?_⟩
      rw [Feed.stretch_succ, hpiece]
      exact Answers.data hpoll hne hanswers

/-- **The limit on lines under bounded reads.** Let no read bring more than a chunk, whatever else
the source does, and take any calls of a fresh reader, whatever they answer. In every request that
is handed out each line takes at most the limit and a chunk, its line feed included; a header line
is counted from behind its first byte. No call asks for more while more bytes than the limit of a
line that has not ended are in the buffer. So if nothing but bytes arrive, without end, none of them
a line feed and the first one no `*`, then the first call answers that the line is too long. -/
theorem lines_served (feed : Feed) (hsmall : ∀ n, (feed n).bytes.length ≤ Source.chunkSize) :
    (∀ answers reader n, Served feed answers reader n →
      (∀ request, .ok (some request) ∈ answers → ∀ line ∈ Frame.lines request.raw,
        line.length + 1 ≤ maxLineLength + Source.chunkSize) ∧
        ∀ count waiting, reader.Asks (feed.stretch n count) waiting →
          ∀ fault, ¬ Frame.Overdue waiting.buffer fault) ∧
      ((∀ n, ∃ piece, feed n = .data piece ∧ piece ≠ [] ∧ Byte.lineFeed ∉ piece) →
        (feed 0).bytes.head? ≠ some Byte.star →
        ∃ count next, ({} : Reader).Answers (feed.stretch 0 count)
          (.error (.malformed .lineTooLong)) next) := by
  refine ⟨fun answers reader n hserved => ⟨?_, ?_⟩, fun hdata hstar => ?_⟩
  · exact (hserved.gathered hsmall).2
  · exact fun count waiting hasks => hasks.not_overdue
  · exact exists_answers_lineTooLong hdata 0 List.not_mem_nil hstar

/-! ## A line that is as long as a line can be -/

theorem lineFeed_notMem_spaces (n : Nat) : Byte.lineFeed ∉ List.replicate n Byte.space := by
  intro hmem
  exact absurd (List.eq_of_mem_replicate hmem) (by decide)

theorem poll_spaces {n : Nat} (h : n ≤ maxLineLength) :
    ({ buffer := List.replicate n Byte.space } : Reader).poll = none := by
  refine poll_of_short (lineFeed_notMem_spaces n) ?_ (by rwa [List.length_replicate])
  intro hhead
  exact absurd (List.eq_of_mem_replicate (List.mem_of_head? hhead)) (by decide)

/-- A line of spaces is a request that asks for nothing. -/
theorem poll_spaces_lineFeed (n : Nat) :
    ({ buffer := List.replicate n Byte.space ++ [Byte.lineFeed] } : Reader).poll =
      some (.ok ⟨List.replicate n Byte.space ++ [Byte.lineFeed], [], .inline, true⟩, {}) := by
  have hchop : chopReturn? (List.replicate n Byte.space) = none := by
    refine if_neg fun hlast => ?_
    exact absurd (List.eq_of_mem_replicate (List.mem_of_getLast? hlast)) (by decide)
  have hwords : Inline.splitWords (List.replicate n Byte.space) = .ok [] := by
    have hsplit := Inline.splitFrom_spaces n 0 [] []
    rw [List.append_nil] at hsplit
    exact hsplit
  have hscan : Frame.scan (List.replicate n Byte.space ++ [Byte.lineFeed]) =
      .found ⟨n + 1, [], .inline⟩ := by
    have hinline : Inline.scan (List.replicate n Byte.space ++ [Byte.lineFeed]) =
        .found ⟨n + 1, [], .inline⟩ :=
      Inline.scan_eq_found_iff.2
        ⟨_, [], [], lineFeed_notMem_spaces n, rfl, by rwa [hchop], by rw [List.length_replicate]⟩
    cases n with
    | zero => exact hinline
    | succ n => exact hinline
  have hraw : (List.replicate n Byte.space ++ [Byte.lineFeed]).take (n + 1) =
      List.replicate n Byte.space ++ [Byte.lineFeed] :=
    List.take_of_length_le (by simp)
  simp [poll, hscan, handOut, Frame.cut, hraw]

theorem lines_spaces_lineFeed (n : Nat) :
    Frame.lines (List.replicate n Byte.space ++ [Byte.lineFeed]) =
      [List.replicate n Byte.space] := by
  have hended : endedLine? (List.replicate n Byte.space ++ [Byte.lineFeed]) =
      some (List.replicate n Byte.space) :=
    endedLine?_eq_some_iff.2 ⟨lineFeed_notMem_spaces n, [], rfl⟩
  cases n with
  | zero => rfl
  | succ n =>
    rw [List.replicate_succ, List.cons_append] at hended ⊢
    rw [Frame.lines, if_neg (by decide), hended, Option.toList_some]

theorem answers_spaces {n m : Nat} (h : n ≤ maxLineLength) (hm : m = n + Source.chunkSize)
    (hanswers : ({ buffer := List.replicate m Byte.space } : Reader).Answers given answer next) :
    ({ buffer := List.replicate n Byte.space } : Reader).Answers
      (.data (List.replicate Source.chunkSize Byte.space) :: given) answer next := by
  refine Answers.data (poll_spaces h) (List.ne_nil_of_length_pos ?_) ?_
  · rw [List.length_replicate]
    decide
  · rwa [receive, List.replicate_append_replicate, ← hm]

/-- Chunks of spaces. If the fifth chunk ends the line, the line takes all that a line can take, and
is accepted. If none does, the line is refused. -/
theorem lines_served_spaces :
    let spaces := fun n => List.replicate n Byte.space
    let ending : Feed := fun n =>
      .data (if n = 4 then spaces (Source.chunkSize - 1) ++ [Byte.lineFeed]
        else spaces Source.chunkSize)
    let endless : Feed := fun _ => .data (spaces Source.chunkSize)
    (∃ request reader, Served ending [.ok (some request)] reader 5 ∧
      Frame.lines request.raw = [spaces (maxLineLength + Source.chunkSize - 1)] ∧
      ∀ line ∈ Frame.lines request.raw, line.length + 1 ≤ maxLineLength + Source.chunkSize) ∧
      ∃ count next, ({} : Reader).Answers (endless.stretch 0 count)
        (.error (.malformed .lineTooLong)) next := by
  intro spaces ending endless
  have hchunk : 0 < Source.chunkSize := by decide
  constructor
  · have hsmall : ∀ n, (ending n).bytes.length ≤ Source.chunkSize := by
      intro n
      by_cases hn : n = 4
      · simp [ending, hn, Delivery.bytes, spaces]
        omega
      · simp [ending, hn, Delivery.bytes, spaces]
    let request : Request :=
      ⟨spaces (maxLineLength + Source.chunkSize - 1) ++ [Byte.lineFeed], [], .inline, true⟩
    have hlast : ({ buffer := spaces maxLineLength } : Reader).Answers
        [.data (spaces (Source.chunkSize - 1) ++ [Byte.lineFeed])] (.ok (some request)) {} := by
      refine Answers.data (poll_spaces (Nat.le_refl _)) (by simp) ?_
      have hwhole : spaces maxLineLength ++ (spaces (Source.chunkSize - 1) ++ [Byte.lineFeed]) =
          request.raw := by
        rw [← List.append_assoc, List.replicate_append_replicate, ← Nat.add_sub_assoc hchunk]
      rw [receive, hwhole]
      exact fun rest => read_of_poll_eq_request (poll_spaces_lineFeed _) rest
    have hanswers : ({} : Reader).Answers (ending.stretch 0 5) (.ok (some request)) {} := by
      have hfourth := answers_spaces (n := 3 * Source.chunkSize) (by decide) (by decide) hlast
      have hthird := answers_spaces (n := 2 * Source.chunkSize) (by decide) (by decide) hfourth
      have hsecond := answers_spaces (n := Source.chunkSize) (by decide) (by decide) hthird
      exact answers_spaces (n := 0) (by decide) (by decide) hsecond
    have hserved := Served.fresh.call hanswers
    have hlines := ((lines_served ending hsmall).1 _ _ _ hserved).1 request (by simp)
    exact ⟨request, {}, hserved, lines_spaces_lineFeed _, hlines⟩
  · have hdata : ∀ n, ∃ piece, endless n = .data piece ∧ piece ≠ [] ∧ Byte.lineFeed ∉ piece :=
      fun n => ⟨_, rfl, by simp [spaces]; decide, lineFeed_notMem_spaces _⟩
    refine (lines_served endless fun n => ?_).2 hdata ?_
    · exact Nat.le_of_eq List.length_replicate
    · decide

end Reader

end LogStore
