import LogStore.Proofs.Request.Calls

/-!
# Bytes that can be read however they are cut

A log is read in pieces whose ends nobody chooses. `Bytes.Readable` says that this does no harm:
every reading of the bytes comes to a clean end. Complete requests are not enough for it. A line
that is longer than the limit is taken when its end has arrived, and refused when it has not, so
among the cuts of the bytes there is always one at which the reader gives up
(`exists_head_of_not_linesFit`); and the limit is the only reason (`readable_iff`).
-/

namespace LogStore

/-- However the bytes arrive, they are read to a clean end. -/
def Bytes.Readable (bytes : Bytes) : Prop :=
  ∀ source : Source, source.Delivers bytes → source.transcript.outcome = .ok ()

namespace Reader

/-- A reader that has a fault in its buffer gets there, whatever its source brings. -/
theorem outcome_readAll_of_malformed {reader : Reader} (hsound : reader.Sound) {fault : Fault}
    (hfault : Frame.scan (reader.view []).rest = .malformed fault) (source : Source) :
    (reader.readAll source).outcome = .error (.malformed fault) := by
  cases hpoll : reader.poll with
  | none =>
    obtain ⟨hahead, hscan⟩ := of_poll_eq_none hpoll
    rw [view, List.append_nil, Dissection.rest_prepend, Bytes.dissect_of_incomplete hscan,
      hscan] at hfault
    cases hfault
  | some answer =>
    obtain ⟨answer, next⟩ := answer
    cases answer with
    | ok request =>
      -- Handing out a request that stands in front of the fault leaves the fault where it is.
      obtain ⟨hnext, first, _, _, hview⟩ := of_poll_eq_request hsound hpoll
      rw [(hview []).1, Dissection.rest_prepend] at hfault
      rw [(readAll_of_request (read_of_poll_eq_request hpoll source)).2]
      exact outcome_readAll_of_malformed hnext hfault source
    | error other =>
      obtain ⟨_, _, hscan⟩ := of_poll_eq_fault hsound hpoll
      rw [view, List.append_nil, Dissection.rest_prepend, Bytes.dissect_of_malformed hscan,
        hscan] at hfault
      cases hfault
      rw [readAll, readOn_of_error (read_of_poll_eq_fault hpoll source)]
termination_by reader.backlog
decreasing_by exact backlog_poll_lt hpoll

end Reader

namespace Bytes

variable {bytes : Bytes}

/-- A cut inside a line that is too long, and that the scanner looks at first, leaves a beginning
that is refused. -/
theorem exists_head_of_long {line : Bytes} (h : line ∈ Frame.lines bytes)
    (hlong : maxLineLength < line.length) :
    ∃ head tail fault, bytes = head ++ tail ∧
      Frame.scan (dissect head).rest = .malformed fault := by
  obtain ⟨head, tail, fault, hbytes, hhead⟩ := Frame.exists_scan_eq_malformed_of_mem_lines h hlong
  exact ⟨head, tail, fault, hbytes, by rw [dissect_of_malformed hhead, hhead]⟩

/-- Where the lines do not fit, there is a place at which a reader gives up if the bytes are cut
there. -/
theorem exists_head_of_not_linesFit (h : ¬ LinesFit bytes) :
    ∃ head tail fault, bytes = head ++ tail ∧
      Frame.scan (dissect head).rest = .malformed fault := by
  fun_induction dissect bytes with
  | case1 bytes frame hscan ih =>
    by_cases hfirst : ∀ line ∈ Frame.lines bytes, line.length ≤ maxLineLength
    · have hcut : (frame.cut bytes).LinesFit := by
        rw [Request.LinesFit, Frame.lines_raw_cut hscan]
        exact hfirst
      -- The line that is too long stands behind the first request, which the head then includes.
      obtain ⟨head, tail, fault, hdrop, hfault⟩ :=
        ih fun hrest => h ((linesFit_of_found hscan).2 ⟨hcut, hrest⟩)
      refine ⟨bytes.take frame.length ++ head, tail, fault, ?_, ?_⟩
      · rw [List.append_assoc, ← hdrop, List.take_append_drop]
      · obtain ⟨again, _, hdissect⟩ := (Frame.intact_cut hscan).dissect_append head
        show Frame.scan (dissect ((frame.cut bytes).raw ++ head)).rest = .malformed fault
        rw [hdissect, Dissection.rest_prepend, hfault]
    · simp only [Classical.not_forall, Nat.not_le] at hfirst
      obtain ⟨line, hline, hlong⟩ := hfirst
      exact exists_head_of_long hline hlong
  | case2 bytes hnot =>
    have hlines : ¬ ∀ line ∈ Frame.lines bytes, line.length ≤ maxLineLength := by
      intro hall
      apply h
      rw [LinesFit, dissect_of_not_found hnot]
      exact ⟨fun _ hmem => absurd hmem List.not_mem_nil, hall⟩
    simp only [Classical.not_forall, Nat.not_le] at hlines
    obtain ⟨line, hline, hlong⟩ := hlines
    exact exists_head_of_long hline hlong

/-- Bytes can be read however they are cut if they are complete requests and no line is too long,
and only then. -/
theorem readable_iff : Readable bytes ↔ (dissect bytes).rest = [] ∧ LinesFit bytes := by
  constructor
  · intro h
    refine ⟨?_, Decidable.by_contra fun hfit => ?_⟩
    · have hready := Source.delivers_ofReady bytes
      exact Source.rest_dissect_of_outcome_eq_ok hready (h _ hready)
    · obtain ⟨head, tail, fault, rfl, hfault⟩ := exists_head_of_not_linesFit hfit
      have hne : head ≠ [] := fun hempty => by
        rw [hempty, dissect_nil] at hfault
        cases hfault
      have hcut := h _ (.piece hne (Source.delivers_ofReady tail))
      have hview : Frame.scan ((({} : Reader).receive head).view []).rest = .malformed fault := by
        rw [Reader.view_receive, List.append_nil]
        exact hfault
      rw [Source.transcript, Reader.readAll, Reader.readOn_data rfl hne] at hcut
      have hgivesUp := Reader.outcome_readAll_of_malformed (Reader.sound_of_ahead_eq_none rfl) hview
        (Source.ofReady tail)
      rw [Reader.readAll, hcut] at hgivesUp
      cases hgivesUp
  · rintro ⟨hcomplete, hfit⟩ source hdelivers
    rw [(Source.transcript_eq_dissect hdelivers hfit).2, outcome_dissect_eq_ok_iff, hcomplete]

end Bytes

end LogStore
