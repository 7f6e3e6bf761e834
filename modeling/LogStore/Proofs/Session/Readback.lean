import LogStore.Proofs.Engine.Recovery
import LogStore.Proofs.Request.Readable
import LogStore.Proofs.Request.Words
import LogStore.Proofs.Session.Conversation

/-!
# Reading back what a session has logged

A session logs what its reader has accepted, and a log is read by a reader of the same kind; but the
two cut the bytes in their own ways. Here it is settled when the log of a session can be read back
however its reads are cut: exactly if no line in it is longer than the limit
(`Session.serve_readable_iff`). The reader of a session does not see to that. It accepts a longer
line whose end arrives in time, and the log then holds a line that another reader may refuse.
-/

namespace LogStore

namespace Session

variable {settings : Settings} {vocabulary : Vocabulary} {contents : Bytes} {engine : Engine}

/-! ## A line that only its end makes acceptable -/

/-- An inline request with spaces behind it, without the line feed. -/
def paddedSet (spaces : Nat) : Bytes :=
  Utf8.encode "set k v " ++ List.replicate spaces Byte.space

variable {spaces : Nat}

theorem length_paddedSet (spaces : Nat) : (paddedSet spaces).length = 8 + spaces := by
  rw [paddedSet, List.length_append, List.length_replicate]
  rfl

theorem paddedSet_ne_nil (spaces : Nat) : paddedSet spaces ≠ [] :=
  List.append_ne_nil_of_left_ne_nil (by decide +kernel) _

theorem mem_of_mem_paddedSet {b : Byte} (h : b ∈ paddedSet spaces) :
    b ∈ Utf8.encode "set k v " := by
  rcases List.mem_append.1 h with h | h
  · exact h
  · rw [(List.mem_replicate.1 h).2]
    decide +kernel

theorem lineFeed_notMem_paddedSet (spaces : Nat) : Byte.lineFeed ∉ paddedSet spaces := fun h =>
  absurd (mem_of_mem_paddedSet h) (by decide +kernel)

theorem splitWords_paddedSet (spaces : Nat) :
    Inline.splitWords ((chopReturn? (paddedSet spaces)).getD (paddedSet spaces)) =
      .ok [⟨0, 3⟩, ⟨4, 5⟩, ⟨6, 7⟩] := by
  have hchop : chopReturn? (paddedSet spaces) = none := if_neg fun h =>
    absurd (mem_of_mem_paddedSet (List.mem_of_getLast? h)) (by decide +kernel)
  have hspaces := Inline.splitFrom_spaces spaces 8 [⟨6, 7⟩, ⟨4, 5⟩, ⟨0, 3⟩] []
  rw [List.append_nil] at hspaces
  rw [hchop]
  exact hspaces

/-- While its line feed has not come, the request is waited for as long as the limit allows it. -/
theorem scan_paddedSet (h : 8 + spaces ≤ maxLineLength) :
    Frame.scan (paddedSet spaces) = .incomplete := by
  have hline : scanLine .lineTooLong (paddedSet spaces) = .incomplete := by
    rw [scanLine, splitLine?_eq_none (lineFeed_notMem_paddedSet spaces), length_paddedSet]
    exact if_neg (Nat.not_lt.2 h)
  show Inline.scan (paddedSet spaces) = .incomplete
  rw [Inline.scan, hline]

/-- With the line feed, it is accepted whatever its length. -/
theorem scan_paddedSet_lineFeed (spaces : Nat) :
    Frame.scan (paddedSet spaces ++ [Byte.lineFeed]) =
      .found ⟨(paddedSet spaces).length + 1, [⟨0, 3⟩, ⟨4, 5⟩, ⟨6, 7⟩], .inline⟩ := by
  show Inline.scan (paddedSet spaces ++ [Byte.lineFeed]) = _
  exact Inline.scan_eq_found_iff.2
    ⟨_, [], _, lineFeed_notMem_paddedSet spaces, rfl, splitWords_paddedSet spaces, rfl⟩

theorem not_linesFit_paddedSet (h : maxLineLength < 8 + spaces) :
    ¬ Bytes.LinesFit (paddedSet spaces ++ [Byte.lineFeed]) := fun hfit => by
  have hended : endedLine? (paddedSet spaces ++ [Byte.lineFeed]) = some (paddedSet spaces) :=
    endedLine?_eq_some_iff.2 ⟨lineFeed_notMem_paddedSet spaces, [], rfl⟩
  have hlines : Frame.lines (paddedSet spaces ++ [Byte.lineFeed]) =
      (endedLine? (paddedSet spaces ++ [Byte.lineFeed])).toList := rfl
  have hle := hfit.head (paddedSet spaces) (by rw [hlines, hended]; exact List.mem_singleton_self _)
  rw [length_paddedSet] at hle
  omega

theorem cut_paddedSet (spaces : Nat) :
    (⟨(paddedSet spaces).length + 1, [⟨0, 3⟩, ⟨4, 5⟩, ⟨6, 7⟩], .inline⟩ : Frame).cut
        (paddedSet spaces ++ [Byte.lineFeed]) =
      ⟨paddedSet spaces ++ [Byte.lineFeed], ["set", "k", "v"].map Utf8.encode, .inline, true⟩ := by
  have hraw : (paddedSet spaces ++ [Byte.lineFeed]).take ((paddedSet spaces).length + 1) =
      paddedSet spaces ++ [Byte.lineFeed] := List.take_of_length_le (by simp)
  simp only [Frame.cut, hraw]
  rfl

theorem poll_paddedSet (h : 8 + spaces ≤ maxLineLength) :
    ({ buffer := paddedSet spaces } : Reader).poll = none := by
  simp only [Reader.poll, scan_paddedSet h]

theorem poll_paddedSet_lineFeed (spaces : Nat) :
    ({ buffer := paddedSet spaces ++ [Byte.lineFeed] } : Reader).poll =
      some (.ok ⟨paddedSet spaces ++ [Byte.lineFeed], ["set", "k", "v"].map Utf8.encode, .inline,
        true⟩, {}) := by
  have hdrop : (paddedSet spaces ++ [Byte.lineFeed]).drop ((paddedSet spaces).length + 1) = [] :=
    List.drop_eq_nil_of_le (by simp)
  simp only [Reader.poll, scan_paddedSet_lineFeed, cut_paddedSet, Reader.handOut, hdrop]

/-- The request that is read when one more space and the line feed come in a second piece. -/
theorem requests_paddedSet (h : 8 + spaces ≤ maxLineLength) :
    (Source.transcript
        [.data (paddedSet spaces), .data [Byte.space, Byte.lineFeed], .ended]).requests =
      [⟨paddedSet (spaces + 1) ++ [Byte.lineFeed], ["set", "k", "v"].map Utf8.encode, .inline,
        true⟩] := by
  have hfirst : ({} : Reader).receive (paddedSet spaces) = { buffer := paddedSet spaces } := rfl
  have hsecond : ({ buffer := paddedSet spaces } : Reader).receive [Byte.space, Byte.lineFeed] =
      { buffer := paddedSet (spaces + 1) ++ [Byte.lineFeed] } := by
    simp [Reader.receive, paddedSet, List.replicate_succ']
  have hread := Reader.read_of_poll_eq_request (poll_paddedSet_lineFeed (spaces + 1)) [.ended]
  rw [Source.transcript, Reader.readAll, Reader.readOn_data rfl (paddedSet_ne_nil spaces), hfirst,
    Reader.readOn_data (poll_paddedSet h) (List.cons_ne_nil _ _), hsecond, ← Reader.readAll,
    (Reader.readAll_of_request hread).1, Reader.readAll, Reader.readOn_of_end rfl]
  rfl

/-- It is a write, and it succeeds. -/
theorem writes_paddedSet (hvocabulary : engine.vocabulary = .standard)
    (h : 8 + spaces ≤ maxLineLength) :
    (engine.course (carriedOut (Source.transcript
        [.data (paddedSet spaces), .data [Byte.space, Byte.lineFeed], .ended]).requests)).writes =
      [paddedSet (spaces + 1) ++ [Byte.lineFeed]] := by
  rw [requests_paddedSet h, carriedOut_cons_of_not_isQuit rfl]
  generalize paddedSet (spaces + 1) ++ [Byte.lineFeed] = raw
  have hwrite : engine.isWrite ⟨raw, ["set", "k", "v"].map Utf8.encode, .inline, true⟩ := by
    simp only [Engine.isWrite, hvocabulary]
    rfl
  rw [Engine.course, if_pos hwrite]
  rfl

/-! ## What is logged -/

/-- What is written are complete requests. -/
theorem rest_dissect_of_mem_writes {source : Source} {raw : Bytes}
    (h : raw ∈ (engine.course (carriedOut source.transcript.requests)).writes) :
    (Bytes.dissect raw).rest = [] := by
  obtain ⟨request, hmem, rfl⟩ := Engine.exists_of_mem_writes_course h
  have hread : request ∈ source.transcript.requests := (List.takeWhile_sublist _).subset hmem
  exact (source.intact_of_mem_transcript request hread).rest_dissect_raw

/-- **The log of a session, read back.** Whatever a client sends and however it arrives, the log
grows by the raw bytes of the writes that succeed. It is replayed without an error however its reads
are cut, if neither in the log as it was before nor in these writes there is a line that is longer
than the limit, and only then. -/
theorem serve_readable_iff (hopen : Engine.ofFile settings vocabulary contents = .ok engine)
    (source : Source) :
    let heard := (Source.transcript (source ++ [.ended])).requests
    let writes := (engine.course (carriedOut heard)).writes
    let log := (serve engine source false).1.log.device.contents
    log = contents ++ writes.flatten ∧
      ((∀ reading : Source, reading.Delivers log → (reading.replay vocabulary .empty).2 = .ok ()) ↔
        contents.LinesFit ∧ ∀ raw ∈ writes, raw.LinesFit) := by
  intro heard writes log
  obtain ⟨hok, _, hstaged, hreliable, hcontents, _⟩ := Engine.of_ofFile_eq_ok hopen
  have hcomplete : (Bytes.dissect contents).rest = [] :=
    Source.rest_dissect_of_outcome_eq_ok (Source.delivers_ofReady contents) hok
  have hlog : log = contents ++ writes.flatten := by
    have h := (concludes_serve hreliable source rfl).logged
    rwa [hstaged, List.append_nil, hcontents] at h
  obtain ⟨hwhole, hfit⟩ := Bytes.linesFit_append_flatten hcomplete
    fun raw (hraw : raw ∈ writes) => rest_dissect_of_mem_writes hraw
  refine ⟨hlog, ?_⟩
  rw [← hfit, ← hlog]
  rw [← hlog] at hwhole
  exact Bytes.readable_iff.trans (and_iff_right hwhole)

/-- The client of a session over an empty log sends a write in two pieces, of which the first is as
long as the limit allows. The write is logged, and the log cannot be read back if it is cut
differently. -/
theorem serve_readable_iff_paddedSet :
    let spaces := maxLineLength - 8
    let sent : Source := [.data (paddedSet spaces), .data [Byte.space, Byte.lineFeed]]
    let logged := paddedSet (spaces + 1) ++ [Byte.lineFeed]
    ∃ engine, Engine.ofFile {} .standard [] = .ok engine ∧
      (serve engine sent false).1.log.device.contents = logged ∧
      ∃ reading : Source, reading.Delivers logged ∧
        (reading.replay .standard .empty).2 ≠ .ok () := by
  intro spaces sent logged
  have hlimit : 8 + spaces = maxLineLength := by decide
  have hempty : Recoverable .standard [] .empty :=
    ⟨by rw [Bytes.dissect_nil], by decide +kernel, by rw [Bytes.dissect_nil]; rfl⟩
  obtain ⟨engine, hopen, _⟩ := Engine.exists_ofFile_eq hempty {}
  obtain ⟨_, hvocabulary, _⟩ := Engine.of_ofFile_eq_ok hopen
  have hwrites : (engine.course (carriedOut
      (Source.transcript (sent ++ [.ended])).requests)).writes = [logged] :=
    writes_paddedSet hvocabulary (Nat.le_of_eq hlimit)
  obtain ⟨hlog, hiff⟩ := serve_readable_iff hopen sent
  rw [hwrites, List.nil_append, List.flatten_singleton] at hlog
  rw [hwrites, hlog] at hiff
  refine ⟨engine, hopen, hlog, Classical.byContradiction fun hall => ?_⟩
  have hlines := (hiff.1 fun reading hreading => Classical.byContradiction fun hfails =>
    hall ⟨reading, hreading, hfails⟩).2 logged (List.mem_singleton_self _)
  exact not_linesFit_paddedSet (by omega) hlines

end Session

end LogStore
