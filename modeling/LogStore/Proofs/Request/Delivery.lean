import LogStore.Proofs.Request.Dissection
import LogStore.Request.Intake

/-!
# Reading does not depend on how the bytes arrive

A reader looks at prefixes of a stream, sometimes one request further than it hands out, while
`Bytes.dissect` looks at the whole. What ties them together is `Reader.view`: the requests that a
reader has still to hand out, given the bytes that are still to come. Each answer takes the first
request off this view and leaves the rest of it as it is (`Reader.agrees_read`), so reading to the
end gives the dissection of the stream, whatever the deliveries (`Reader.readOn_eq_view`).

The limit on lines is the one exception. A fault that is found early may be the limit of a line that
would have ended, so there it is assumed that no line of the stream breaks it.
-/

namespace LogStore

/-- The source delivers the given bytes, in pieces none of which is empty, and then ends. -/
inductive Source.Delivers : Source → Bytes → Prop
  /-- There is nothing left to ask for. -/
  | exhausted : Delivers [] []
  /-- The end is reported; what the source would answer after that does not matter. -/
  | ended (rest : Source) : Delivers (.ended :: rest) []
  /-- A piece arrives. -/
  | piece {piece bytes : Bytes} {source : Source} (hne : piece ≠ [])
      (h : Delivers source bytes) : Delivers (.data piece :: source) (piece ++ bytes)

namespace Source

theorem delivers_map_data {pieces : List Bytes} (h : ∀ piece ∈ pieces, piece ≠ []) :
    Delivers (pieces.map .data) pieces.flatten := by
  induction pieces with
  | nil => exact .exhausted
  | cons piece pieces ih =>
    obtain ⟨hpiece, hpieces⟩ := List.forall_mem_cons.1 h
    exact .piece hpiece (ih hpieces)

theorem delivers_ofReady (bytes : Bytes) : Delivers (ofReady bytes) bytes := by
  have h := delivers_map_data fun piece (hpiece : piece ∈ Intake.pieces {} bytes) =>
    Intake.ne_nil_of_mem_pieces hpiece
  rwa [Intake.flatten_pieces] at h

end Source

namespace Reader

/-- What is kept ahead is what the bytes say: a request is that of its raw bytes, and a fault that
of the buffer, which still holds the bytes that caused it. -/
structure Sound (reader : Reader) : Prop where
  intact : ∀ request, reader.ahead = some (.ok request) → request.Intact
  faulty : ∀ fault, reader.ahead = some (.error fault) →
    Frame.scan reader.buffer = .malformed fault

theorem sound_of_ahead_eq_none {reader : Reader} (h : reader.ahead = none) : reader.Sound where
  intact _ hahead := by rw [h] at hahead; cases hahead
  faulty _ hahead := by rw [h] at hahead; cases hahead

/-- The request that is kept ahead, if one is. -/
def aheadRequests (reader : Reader) : List Request :=
  match reader.ahead with
  | some (.ok request) => [request]
  | _ => []

/-- What the reader has still to hand out, if the bytes `more` are still to come. -/
def view (reader : Reader) (more : Bytes) : Dissection :=
  (Bytes.dissect (reader.buffer ++ more)).prepend reader.aheadRequests

/-! ## What is handed out -/

theorem content_handOut (request : Request) (buffer : Bytes) :
    (handOut request buffer).1.content = request.content := by
  unfold handOut
  split
  · rfl
  · split <;> rfl

theorem sound_handOut (request : Request) (buffer : Bytes) : (handOut request buffer).2.Sound := by
  unfold handOut
  split
  · exact sound_of_ahead_eq_none rfl
  · split
    · exact sound_of_ahead_eq_none rfl
    · rename_i hscan
      exact { intact := nofun, faulty := fun _ h => by cases h; exact hscan }
    · rename_i frame hscan
      exact { intact := fun _ h => by cases h; exact Frame.intact_cut hscan, faulty := nofun }

/-- Looking ahead moves a request out of the buffer, and nothing else. -/
theorem view_handOut (request : Request) (buffer more : Bytes) :
    (handOut request buffer).2.view more = Bytes.dissect (buffer ++ more) := by
  unfold handOut
  split
  · rfl
  · split
    · rfl
    · rfl
    · rename_i frame hscan
      rw [Bytes.dissect_of_found (Frame.scan_append hscan more), Frame.cut_append hscan,
        List.drop_append_of_le_length (Frame.length_le_of_scan hscan)]
      rfl

theorem linesFit_handOut (request : Request) {buffer more : Bytes}
    (h : Bytes.LinesFit (buffer ++ more)) :
    Bytes.LinesFit ((handOut request buffer).2.buffer ++ more) := by
  unfold handOut
  split
  · exact h
  · split
    · exact h
    · exact h
    · rename_i frame hscan
      have := ((Bytes.linesFit_of_found (Frame.scan_append hscan more)).1 h).2
      rwa [List.drop_append_of_le_length (Frame.length_le_of_scan hscan)] at this

/-! ## Answers from the buffer -/

variable {reader next : Reader} {request : Request} {fault : Fault}

theorem of_poll_eq_none (h : reader.poll = none) :
    reader.ahead = none ∧ Frame.scan reader.buffer = .incomplete := by
  unfold poll at h
  split at h <;> try contradiction
  rename_i hahead
  split at h <;> try contradiction
  rename_i hscan
  exact ⟨hahead, hscan⟩

/-- A request was kept ahead, or it stands at the head of the buffer; either way there is a look
behind it. -/
theorem poll_eq_request_cases (h : reader.poll = some (.ok request, next)) :
    ∃ first behind, request = (handOut first behind).1 ∧ next = (handOut first behind).2 ∧
      (reader.ahead = some (.ok first) ∧ behind = reader.buffer ∨
        ∃ frame, reader.ahead = none ∧ Frame.scan reader.buffer = .found frame ∧
          first = frame.cut reader.buffer ∧ behind = reader.buffer.drop frame.length) := by
  unfold poll at h
  split at h
  · rename_i kept hahead
    cases h
    exact ⟨kept, reader.buffer, rfl, rfl, .inl ⟨hahead, rfl⟩⟩
  · cases h
  · rename_i hahead
    split at h
    · cases h
    · cases h
    · rename_i frame hscan
      cases h
      exact ⟨_, _, rfl, rfl, .inr ⟨frame, hahead, hscan, rfl, rfl⟩⟩

theorem poll_eq_fault_cases (h : reader.poll = some (.error fault, next)) :
    next = { reader with ahead := none } ∧
      (reader.ahead = some (.error fault) ∨
        reader.ahead = none ∧ Frame.scan reader.buffer = .malformed fault) := by
  unfold poll at h
  split at h
  · cases h
  · rename_i hahead
    cases h
    exact ⟨rfl, .inl hahead⟩
  · rename_i hahead
    split at h
    · cases h
    · rename_i hscan
      cases h
      exact ⟨by rw [← hahead], .inr ⟨hahead, hscan⟩⟩
    · simp only [Option.some.injEq, Prod.mk.injEq] at h
      cases h.1

/-- A fault is that of the buffer, whether it was found just now or one request earlier. -/
theorem of_poll_eq_fault (hsound : reader.Sound) (h : reader.poll = some (.error fault, next)) :
    next = { reader with ahead := none } ∧ reader.aheadRequests = [] ∧
      Frame.scan reader.buffer = .malformed fault := by
  obtain ⟨hnext, hahead | ⟨hahead, hscan⟩⟩ := poll_eq_fault_cases h
  · exact ⟨hnext, by simp only [aheadRequests, hahead], hsound.faulty _ hahead⟩
  · exact ⟨hnext, by simp only [aheadRequests, hahead], hscan⟩

/-- A request that is handed out was the first of the view. -/
theorem of_poll_eq_request (hsound : reader.Sound) (h : reader.poll = some (.ok request, next)) :
    next.Sound ∧ ∃ first : Request, first.Intact ∧ first.content = request.content ∧
      ∀ more, reader.view more = (next.view more).prepend [first] ∧
        (Bytes.LinesFit (reader.buffer ++ more) → Bytes.LinesFit (next.buffer ++ more)) := by
  obtain ⟨first, behind, rfl, rfl, ⟨hahead, rfl⟩ | ⟨frame, hahead, hscan, rfl, rfl⟩⟩ :=
    poll_eq_request_cases h
  · refine ⟨sound_handOut .., first, hsound.intact first hahead, (content_handOut ..).symm,
      fun more => ⟨?_, linesFit_handOut first⟩⟩
    rw [view_handOut, view, aheadRequests, hahead]
  · refine ⟨sound_handOut .., frame.cut reader.buffer, Frame.intact_cut hscan,
      (content_handOut ..).symm, fun more => ?_⟩
    have hmore := Frame.scan_append hscan more
    have hdrop : (reader.buffer ++ more).drop frame.length =
        reader.buffer.drop frame.length ++ more :=
      List.drop_append_of_le_length (Frame.length_le_of_scan hscan)
    constructor
    · rw [view_handOut, view, aheadRequests, hahead, Bytes.dissect_of_found hmore,
        Frame.cut_append hscan, hdrop]
      rfl
    · intro hfit
      have := ((Bytes.linesFit_of_found hmore).1 hfit).2
      rw [hdrop] at this
      exact linesFit_handOut _ this

/-- Bytes that arrive were counted in the view before. -/
theorem view_receive (reader : Reader) (bytes more : Bytes) :
    (reader.receive bytes).view more = reader.view (bytes ++ more) := by
  rw [view, view, receive, List.append_assoc]
  rfl

/-! ## Answers with the source -/

/-- The answer agrees with what there was to be handed out: it is the first request of it, and the
rest is still there, or it is the outcome, and there was no request. A fault is held to that only
if the lines of the stream fit. -/
def Agrees (whole : Dissection) (fit : Prop) : Answer × Reader × Source → Prop
  | (.ok (some request), next, rest) =>
    ∃ first more, first.content = request.content ∧ whole = (next.view more).prepend [first] ∧
      next.Sound ∧ rest.Delivers more ∧ (fit → Bytes.LinesFit (next.buffer ++ more))
  | (.ok none, _, _) => whole.requests = [] ∧ whole.outcome = .ok ()
  | (.error (.malformed fault), _, _) =>
    fit → whole.requests = [] ∧ whole.outcome = .error (.malformed fault)
  | (.error e, _, _) => whole.requests = [] ∧ whole.outcome = .error e

/-- At its end a source leaves the reader with what is no complete request. -/
theorem agrees_atEnd (hpoll : reader.poll = none) (fit : Prop) (next : Reader) (rest : Source) :
    Agrees (reader.view []) fit (reader.atEnd, next, rest) := by
  obtain ⟨hahead, hscan⟩ := of_poll_eq_none hpoll
  have hview : reader.view [] = Bytes.dissect reader.buffer := by
    rw [view, aheadRequests, hahead, List.append_nil]
    rfl
  have hrequests : (Bytes.dissect reader.buffer).requests = [] := by
    rw [Bytes.dissect_of_incomplete hscan]
  rw [hview, atEnd]
  split
  · rename_i hempty
    exact ⟨hrequests, by rw [Bytes.outcome_of_incomplete hscan, if_pos hempty]⟩
  · rename_i hne
    exact ⟨hrequests, by rw [Bytes.outcome_of_incomplete hscan, if_neg hne]⟩

/-- A fault in the buffer is one in the whole, unless it is that of a line that would have ended. -/
theorem agrees_fault (hsound : reader.Sound) (h : reader.poll = some (.error fault, next))
    (more : Bytes) (rest : Source) :
    Agrees (reader.view more) (Bytes.LinesFit (reader.buffer ++ more))
      (.error (.malformed fault), next, rest) := by
  intro hfit
  obtain ⟨_, hahead, hscan⟩ := of_poll_eq_fault hsound h
  have hmore := Frame.scan_append_of_malformed hscan more hfit.head
  rw [view, hahead]
  refine ⟨?_, Bytes.outcome_of_malformed hmore⟩
  rw [Bytes.dissect_of_malformed hmore]
  rfl

theorem agrees_read {source : Source} {bytes : Bytes} (hdelivers : source.Delivers bytes)
    (hsound : reader.Sound) :
    Agrees (reader.view bytes) (Bytes.LinesFit (reader.buffer ++ bytes)) (reader.read source) := by
  induction hdelivers generalizing reader with
  | exhausted =>
    unfold read
    split
    · rename_i hpoll
      obtain ⟨hnext, first, _, hcontent, hview⟩ := of_poll_eq_request hsound hpoll
      exact ⟨first, [], hcontent, (hview []).1, hnext, .exhausted, (hview []).2⟩
    · exact agrees_fault hsound ‹_› [] []
    · exact agrees_atEnd ‹_› _ reader []
  | ended rest =>
    unfold read
    split
    · rename_i hpoll
      obtain ⟨hnext, first, _, hcontent, hview⟩ := of_poll_eq_request hsound hpoll
      exact ⟨first, [], hcontent, (hview []).1, hnext, .ended rest, (hview []).2⟩
    · exact agrees_fault hsound ‹_› [] _
    · exact agrees_atEnd ‹_› _ reader rest
  | @piece piece bytes source hne hdelivers ih =>
    cases piece with
    | nil => exact absurd rfl hne
    | cons b piece =>
      unfold read
      split
      · rename_i hpoll
        obtain ⟨hnext, first, _, hcontent, hview⟩ := of_poll_eq_request hsound hpoll
        exact ⟨first, _, hcontent, (hview _).1, hnext, .piece hne hdelivers, (hview _).2⟩
      · exact agrees_fault hsound ‹_› _ _
      · rename_i hpoll
        have hahead : (reader.receive (b :: piece)).ahead = none := (of_poll_eq_none hpoll).1
        have := ih (sound_of_ahead_eq_none hahead)
        rwa [view_receive, receive, List.append_assoc] at this

/-! ## Reading to the end -/

/-- Reading to the end gives the view, if the lines fit or no fault was met. -/
theorem readOn_eq_view {source : Source} {bytes : Bytes} (hdelivers : source.Delivers bytes)
    (hsound : reader.Sound) (requests : List Request) (t : Transcript)
    (ht : reader.readOn source requests = t)
    (hfit : (∃ fault, t.outcome = .error (.malformed fault)) →
      Bytes.LinesFit (reader.buffer ++ bytes)) :
    t.requests.map Request.content =
        requests.reverse.map Request.content ++
          (reader.view bytes).requests.map Request.content ∧
      t.outcome = (reader.view bytes).outcome := by
  have hagrees := agrees_read hdelivers hsound
  fun_induction readOn reader source requests generalizing bytes with
  | case1 reader source requests request next rest hread ih =>
    rw [hread] at hagrees
    obtain ⟨first, more, hcontent, hview, hnext, hmore, hlines⟩ := hagrees
    obtain ⟨hrequests, houtcome⟩ :=
      ih hmore hnext ht (fun hfault => hlines (hfit hfault)) (agrees_read hmore hnext)
    rw [hview, Dissection.requests_prepend, Dissection.outcome_prepend, hrequests, houtcome]
    simp [hcontent]
  | case2 reader source requests next rest hread =>
    rw [hread] at hagrees
    obtain ⟨hrequests, houtcome⟩ := hagrees
    rw [hrequests, houtcome, ← ht]
    exact ⟨by simp, rfl⟩
  | case3 reader source requests e next rest hread =>
    rw [hread] at hagrees
    rw [← ht] at hfit ⊢
    have : (reader.view bytes).requests = [] ∧ (reader.view bytes).outcome = .error e := by
      cases e with
      | malformed fault => exact hagrees (hfit ⟨fault, rfl⟩)
      | unreadable message => exact hagrees
      | truncated pending => exact hagrees
    rw [this.1, this.2]
    exact ⟨by simp, rfl⟩

end Reader

namespace Source

variable {source : Source} {bytes : Bytes}

/-- A stream that was read without a fault was read as what it says as a whole. -/
theorem transcript_eq_dissect_of_not_malformed (h : source.Delivers bytes)
    (hfault : ∀ fault, source.transcript.outcome ≠ .error (.malformed fault)) :
    source.transcript.requests.map Request.content =
        (Bytes.dissect bytes).requests.map Request.content ∧
      source.transcript.outcome = (Bytes.dissect bytes).outcome :=
  Reader.readOn_eq_view h (Reader.sound_of_ahead_eq_none rfl) [] _ rfl
    fun ⟨fault, h⟩ => absurd h (hfault fault)

/-- A stream that was read to a clean end consists of complete requests. -/
theorem rest_dissect_of_outcome_eq_ok (h : source.Delivers bytes)
    (hok : source.transcript.outcome = .ok ()) : (Bytes.dissect bytes).rest = [] := by
  have hfault : ∀ fault, source.transcript.outcome ≠ .error (.malformed fault) := fun fault => by
    rw [hok]
    exact nofun
  rw [← Bytes.outcome_dissect_eq_ok_iff, ← (transcript_eq_dissect_of_not_malformed h hfault).2, hok]

/-- A stream whose lines fit is read as what it says as a whole. -/
theorem transcript_eq_dissect (h : source.Delivers bytes) (hfit : bytes.LinesFit) :
    source.transcript.requests.map Request.content =
        (Bytes.dissect bytes).requests.map Request.content ∧
      source.transcript.outcome = (Bytes.dissect bytes).outcome :=
  Reader.readOn_eq_view h (Reader.sound_of_ahead_eq_none rfl) [] _ rfl fun _ => hfit

/-- **However a stream arrives, it is read as what it says as a whole.** The requests are those of
the dissection, with the same raw bytes, arguments and framing; reading ends with the fault at the
head of the rest, cleanly if there is no rest, and else with the number of the bytes of the rest,
which are all that no request has taken. -/
theorem transcript_eq_of_delivers (h : source.Delivers bytes) (hfit : bytes.LinesFit) :
    source.transcript.requests.map Request.content =
        (Bytes.dissect bytes).requests.map Request.content ∧
      source.transcript.outcome =
        (match Frame.scan (Bytes.dissect bytes).rest with
        | .malformed fault => .error (.malformed fault)
        | _ =>
          if (Bytes.dissect bytes).rest = [] then .ok ()
          else .error (.truncated (Bytes.dissect bytes).rest.length)) ∧
      source.transcript.requests.flatMap Request.raw ++ (Bytes.dissect bytes).rest = bytes := by
  obtain ⟨hrequests, houtcome⟩ := transcript_eq_dissect h hfit
  refine ⟨hrequests, houtcome, ?_⟩
  have hraw : source.transcript.requests.map Request.raw =
      (Bytes.dissect bytes).requests.map Request.raw := by
    have := congrArg (List.map Prod.fst) hrequests
    rwa [List.map_map, List.map_map] at this
  rw [List.flatMap_def, hraw, ← List.flatMap_def, Bytes.flatten_dissect]

/-- A stream of both framings that is cut between the two bytes of a line end and inside a header,
and that ends in the middle of a request. -/
theorem transcript_eq_of_delivers_torn :
    let pieces : List Bytes :=
      ["set k 1\r", "\n*2\r\n$3\r\nget\r\n$", "1\r\nk\r\n*1\r\n$4"].map Utf8.encode
    (∀ piece ∈ pieces, piece ≠ []) ∧ Bytes.LinesFit pieces.flatten ∧
      (Source.transcript (pieces.map .data)).requests.map Request.content =
        (Bytes.dissect pieces.flatten).requests.map Request.content ∧
      (Bytes.dissect pieces.flatten).requests.length = 2 ∧
      (Bytes.dissect pieces.flatten).rest.length = 6 := by
  intro pieces
  have hne : ∀ piece ∈ pieces, piece ≠ [] := by decide +kernel
  have hfit : Bytes.LinesFit pieces.flatten := by decide +kernel
  exact ⟨hne, hfit, (transcript_eq_of_delivers (delivers_map_data hne) hfit).1,
    by decide +kernel, by decide +kernel⟩

end Source

end LogStore
