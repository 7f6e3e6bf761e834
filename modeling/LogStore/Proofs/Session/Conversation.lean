import LogStore.Proofs.Engine.Course
import LogStore.Proofs.Request.Calls
import LogStore.Session.Run

/-!
# What a session amounts to

A session reads with a look ahead, gathers replies and writes, and flushes both at some points. None
of this shows in what it leaves behind when it has ended. Each stretch of steps, from one reading to
the next, does what its request calls for (`exists_run_executing`), so a whole run carries out the
requests of the stream in order, up to the one with which the client takes its leave
(`concludes_run`).
-/

namespace LogStore

/-! ## The outbox -/

namespace Outbox

/-- All bytes that the outbox was given, sent or gathered. -/
def taken (outbox : Outbox) : Bytes :=
  outbox.sent ++ outbox.gathered

variable {outbox : Outbox}

theorem exists_flush_eq (h : outbox.gone = false) :
    ∃ next : Outbox, outbox.flush = (true, next) ∧ next.gone = false ∧
      next.sent = outbox.taken ∧ next.gathered = [] := by
  unfold flush
  by_cases hempty : outbox.gathered = []
  · rw [if_pos hempty]
    exact ⟨outbox, rfl, h, by rw [taken, hempty, List.append_nil], hempty⟩
  · rw [if_neg hempty, h]
    exact ⟨_, rfl, rfl, rfl, rfl⟩

/-- A reply fits behind what is gathered, or is sent on its own if nothing is. -/
theorem exists_gather_eq (h : outbox.gone = false) {reply : Bytes}
    (hroom : reply.length < capacity ∨ outbox.gathered = []) :
    ∃ next : Outbox, outbox.gather reply = (true, next) ∧ next.gone = false ∧
      next.taken = outbox.taken ++ reply := by
  unfold gather
  by_cases hshort : reply.length < capacity
  · rw [if_pos hshort]
    exact ⟨_, rfl, h, by simp only [taken, List.append_assoc]⟩
  · have hempty := hroom.resolve_left hshort
    rw [if_neg hshort, h]
    exact ⟨_, rfl, rfl, by simp only [taken, hempty, List.append_nil]⟩

/-- A client that is there gets every reply, behind those before it. -/
theorem exists_push_eq (h : outbox.gone = false) (reply : Bytes) :
    ∃ next : Outbox, outbox.push reply = (true, next) ∧ next.gone = false ∧
      next.taken = outbox.taken ++ reply := by
  unfold push
  by_cases hroom : outbox.gathered.length + reply.length ≤ capacity
  · rw [if_pos hroom]
    refine exists_gather_eq h ?_
    by_cases hshort : reply.length < capacity
    · exact .inl hshort
    · exact .inr (List.length_eq_zero_iff.1 (by omega))
  · obtain ⟨sent, hflush, hgone, hsent, hgathered⟩ := exists_flush_eq h
    rw [if_neg hroom, hflush]
    obtain ⟨next, hgather, hnext, htaken⟩ := exists_gather_eq hgone (.inr hgathered)
    refine ⟨next, hgather, hnext, ?_⟩
    rw [htaken, taken, hsent, hgathered, List.append_nil]

end Outbox

/-! ## The source of a client that goes -/

/-- The source reports its end, or fails, sooner or later. -/
def Source.Ends (source : Source) : Prop :=
  ∃ delivery ∈ source, delivery.bytes = []

theorem Source.ends_append_ended (source : Source) : Ends (source ++ [.ended]) :=
  ⟨.ended, List.mem_append_right _ (List.mem_singleton_self _), rfl⟩

/-- Reading a request does not use up the end. -/
theorem Reader.ends_of_read_eq_request {reader next : Reader} {source rest : Source}
    {request : Request} (h : reader.read source = (.ok (some request), next, rest))
    (hends : source.Ends) : rest.Ends := by
  induction source generalizing reader with
  | nil =>
    obtain ⟨_, hmem, _⟩ := hends
    cases hmem
  | cons delivery source ih =>
    unfold read at h
    split at h
    · cases h
      exact hends
    · cases h
    · split at h
      · contradiction
      · cases h
      · exact absurd (congrArg Prod.fst h) (atEnd_ne_request reader request)
      · rename_i heq
        cases heq
        obtain ⟨delivery, hmem, hbytes⟩ := hends
        rcases List.mem_cons.1 hmem with rfl | hmem
        · cases hbytes
        · exact ih h ⟨delivery, hmem, hbytes⟩

namespace Session

/-! ## From stage to stage -/

theorem run_step (engine : Engine) {session : Session} (hwaiting : session.waiting = false)
    (hended : session.ended = false) :
    run engine session = run (step engine session).1 (step engine session).2 := by
  rw [run, dif_pos ⟨hwaiting, hended⟩]

theorem run_ended (engine : Engine) {session : Session} (hended : session.ended = true) :
    run engine session = (engine, session) := by
  rw [run, dif_neg fun h => by rw [hended] at h; cases h.2]

/-- The session once its reader has answered. -/
def received (outbox : Outbox) : Reader.Answer × Reader × Source → Session
  | (.ok (some request), reader, incoming) => ⟨reader, incoming, outbox, .executing request⟩
  | (.error (.malformed fault), reader, incoming) =>
    (⟨reader, incoming, outbox, .reading⟩ : Session).answer fault.reply (.logging true)
  | (_, reader, incoming) => ⟨reader, incoming, outbox, .logging true⟩

/-- The end of the bytes ends the session without a word, whether inside a request or not. -/
theorem received_atEnd (outbox : Outbox) (reader next : Reader) (rest : Source) :
    received outbox (reader.atEnd, next, rest) = ⟨next, rest, outbox, .logging true⟩ := by
  unfold Reader.atEnd
  split <;> rfl

/-- A session whose client goes sooner or later gets an answer from its reader. -/
theorem run_reading (engine : Engine) (reader : Reader) {incoming : Source}
    (hends : incoming.Ends) (outbox : Outbox) :
    run engine ⟨reader, incoming, outbox, .reading⟩ =
      run engine (received outbox (reader.read incoming)) := by
  induction incoming generalizing reader with
  | nil =>
    obtain ⟨_, hmem, _⟩ := hends
    cases hmem
  | cons delivery incoming ih =>
    rw [run_step engine (by simp [waiting]) rfl]
    simp only [step, stepReading]
    unfold Reader.read
    cases hpoll : reader.poll with
    | some answer =>
      obtain ⟨answer, next⟩ := answer
      cases answer <;> rfl
    | none =>
      cases delivery with
      | failure message => rfl
      | data bytes =>
        cases bytes with
        | nil => exact congrArg (run engine) (received_atEnd outbox reader reader incoming).symm
        | cons b bytes =>
          -- The step that takes the piece is the same call of the reader going on.
          refine ih _ ?_
          obtain ⟨delivery, hmem, hbytes⟩ := hends
          rcases List.mem_cons.1 hmem with rfl | hmem
          · cases hbytes
          · exact ⟨delivery, hmem, hbytes⟩

/-- At a flush point the writes go to the log and the replies to the client. -/
theorem exists_run_logging {engine : Engine} (hlog : engine.log.device.Reliable) {outbox : Outbox}
    (hgone : outbox.gone = false) (reader : Reader) (incoming : Source) :
    ∃ (log : Log) (box : Outbox), log.device.Reliable ∧
      log.device.contents = engine.log.device.contents ++ engine.staged ∧ box.gone = false ∧
      box.taken = outbox.taken ∧
      run engine ⟨reader, incoming, outbox, .logging false⟩ =
        run { engine with staged := [], log } ⟨reader, incoming, box, .reading⟩ := by
  obtain ⟨log, hflush, hreliable, hcontents⟩ := Engine.exists_flush_eq hlog
  obtain ⟨box, hbox, hopen, hsent, hgathered⟩ := Outbox.exists_flush_eq hgone
  refine ⟨log, box, hreliable, hcontents, hopen, ?_, ?_⟩
  · rw [Outbox.taken, hsent, hgathered, List.append_nil]
  · rw [run_step _ rfl rfl]
    simp only [step, hflush]
    rw [run_step _ rfl rfl]
    simp only [step, hbox]

/-- What has become of an engine and an outbox when the session has ended, after the requests of the
course and some last words. -/
structure Concludes (engine : Engine) (outbox : Outbox) (course : Course) (farewell : Bytes)
    (result : Engine × Session) : Prop where
  closed : result.2.stage = .closed
  sent : result.2.outbox.sent =
    outbox.taken ++ course.replies.flatMap Reply.encode ++ farewell
  keyspace_eq : result.1.keyspace = course.keyspace
  logged : result.1.log.device.contents =
    engine.log.device.contents ++ engine.staged ++ course.writes.flatten
  staged : result.1.staged = []

/-- On the way out the writes go to the log and the replies to the client once more. -/
theorem concludes_logging {engine : Engine} (hlog : engine.log.device.Reliable) {outbox : Outbox}
    (hgone : outbox.gone = false) (reader : Reader) (incoming : Source) :
    Concludes engine outbox (engine.course []) []
      (run engine ⟨reader, incoming, outbox, .logging true⟩) := by
  obtain ⟨log, hflush, hreliable, hcontents⟩ := Engine.exists_flush_eq hlog
  obtain ⟨box, hbox, hopen, hsent, hgathered⟩ := Outbox.exists_flush_eq hgone
  have hrun : run engine ⟨reader, incoming, outbox, .logging true⟩ =
      ({ engine with staged := [], log }, ⟨reader, incoming, box, .closed⟩) := by
    rw [run_step _ rfl rfl]
    simp only [step, hflush]
    rw [run_step _ rfl rfl]
    simp only [step, hbox]
    exact run_ended _ rfl
  rw [hrun]
  exact ⟨rfl, by simp [hsent, Engine.course], rfl, by simp [hcontents, Engine.course], rfl⟩

/-- With an answer on the way out. -/
theorem concludes_answer {engine : Engine} (hlog : engine.log.device.Reliable) {outbox : Outbox}
    (hgone : outbox.gone = false) (session : Session) (hsession : session.outbox = outbox)
    (reply : Reply) :
    Concludes engine outbox (engine.course []) reply.encode
      (run engine (session.answer reply (.logging true))) := by
  obtain ⟨box, hpush, hopen, htaken⟩ := Outbox.exists_push_eq hgone reply.encode
  rw [answer, hsession, hpush]
  have h := concludes_logging hlog hopen session.reader session.incoming
  exact ⟨h.closed, by rw [h.sent, htaken]; simp [Engine.course], h.keyspace_eq, h.logged, h.staged⟩

/-- The reply of a request, if it gets one, is gathered. -/
theorem exists_afterOutcome_eq {outbox : Outbox} (hgone : outbox.gone = false) (reader : Reader)
    (incoming : Source) (stage : Stage) (flush : Bool) {outcome : Outcome}
    (hquit : outcome ≠ .quit) :
    ∃ box : Outbox, box.gone = false ∧
      box.taken = outbox.taken ++ outcome.reply?.toList.flatMap Reply.encode ∧
      (⟨reader, incoming, outbox, stage⟩ : Session).afterOutcome flush outcome =
        ⟨reader, incoming, box, if flush then .logging false else .reading⟩ := by
  cases outcome with
  | silent => exact ⟨outbox, hgone, by simp [Outcome.reply?], rfl⟩
  | reply answer =>
    obtain ⟨box, hpush, hopen, htaken⟩ := Outbox.exists_push_eq hgone answer.encode
    refine ⟨box, hopen, by simp [htaken, Outcome.reply?], ?_⟩
    simp only [afterOutcome, Session.answer, hpush]
  | quit => exact absurd rfl hquit

/-- A request, unless the client takes its leave with it, is carried out, answered, and staged if it
is a write that succeeds. A flush point behind it makes no difference to what the log with the stage
and the outbox hold in all. -/
theorem exists_run_executing {engine : Engine} (hlog : engine.log.device.Reliable)
    {outbox : Outbox} (hgone : outbox.gone = false) (reader : Reader) (incoming : Source)
    {request : Request} (hquit : request.isQuit = false) :
    ∃ (next : Engine) (box : Outbox), next.log.device.Reliable ∧ box.gone = false ∧
      next.vocabulary = engine.vocabulary ∧
      next.keyspace = (engine.execute request).2.keyspace ∧
      next.log.device.contents ++ next.staged = engine.log.device.contents ++ engine.staged ++
        (if engine.isWrite request then request.raw else []) ∧
      box.taken =
        outbox.taken ++ (engine.execute request).1.reply?.toList.flatMap Reply.encode ∧
      run engine ⟨reader, incoming, outbox, .executing request⟩ =
        run next ⟨reader, incoming, box, .reading⟩ := by
  obtain ⟨box, hopen, htaken, hafter⟩ := exists_afterOutcome_eq hgone reader incoming
    (.executing request) request.flush (Engine.outcome_ne_quit hquit engine)
  have hstep : run engine ⟨reader, incoming, outbox, .executing request⟩ =
      run (engine.execute request).2
        ⟨reader, incoming, box, if request.flush then .logging false else .reading⟩ := by
    rw [run_step _ rfl rfl, ← hafter]
    rfl
  have hlogged : (engine.execute request).2.log.device.contents ++
      (engine.execute request).2.staged = engine.log.device.contents ++ engine.staged ++
        if engine.isWrite request then request.raw else [] := by
    rw [Engine.log_execute, Engine.staged_execute, List.append_assoc]
  have hreliable : (engine.execute request).2.log.device.Reliable := by
    rwa [Engine.log_execute]
  cases hflush : request.flush with
  | false =>
    rw [hflush] at hstep
    exact ⟨_, box, hreliable, hopen, Engine.vocabulary_execute .., rfl, hlogged, htaken, hstep⟩
  | true =>
    rw [hflush] at hstep
    obtain ⟨log, sent, hlog, hcontents, hsent, hsame, hrun⟩ :=
      exists_run_logging hreliable hopen reader incoming
    refine ⟨{ (engine.execute request).2 with staged := [], log }, sent, hlog, hsent,
      Engine.vocabulary_execute .., rfl, ?_, hsame.trans htaken, hstep.trans hrun⟩
    rw [hcontents, hlogged, List.append_nil]

/-! ## From request to request -/

/-- What the client is told in the end: that it may go, if it takes its leave, or what was wrong
with its bytes. -/
def farewell (requests : List Request) (outcome : Except ReadFailure Unit) : Bytes :=
  if requests.any Request.isQuit then (Reply.simple "OK").encode
  else
    match outcome with
    | .error (.malformed fault) => fault.reply.encode
    | _ => []

/-- The requests that a session carries out: those before the one with which its client takes its
leave. -/
def carriedOut (requests : List Request) : List Request :=
  requests.takeWhile (!·.isQuit)

theorem carriedOut_cons_of_isQuit {request : Request} (h : request.isQuit)
    (requests : List Request) : carriedOut (request :: requests) = [] := by
  rw [carriedOut, List.takeWhile_cons_of_neg (by simp [h])]

theorem carriedOut_cons_of_not_isQuit {request : Request} (h : request.isQuit = false)
    (requests : List Request) :
    carriedOut (request :: requests) = request :: carriedOut requests := by
  rw [carriedOut, List.takeWhile_cons_of_pos (by simp [h]), carriedOut]

theorem farewell_cons_of_isQuit {request : Request} (h : request.isQuit) (requests : List Request)
    (outcome : Except ReadFailure Unit) :
    farewell (request :: requests) outcome = (Reply.simple "OK").encode := by
  simp only [farewell, List.any_cons, h, Bool.true_or, if_true]

theorem farewell_cons_of_not_isQuit {request : Request} (h : request.isQuit = false)
    (requests : List Request) (outcome : Except ReadFailure Unit) :
    farewell (request :: requests) outcome = farewell requests outcome := by
  simp only [farewell, List.any_cons, h, Bool.false_or]

/-- A client that takes its leave is told that it may go. -/
theorem concludes_of_isQuit {engine : Engine} (hlog : engine.log.device.Reliable)
    {outbox : Outbox} (hgone : outbox.gone = false) (reader : Reader) (incoming : Source)
    {request : Request} (hquit : request.isQuit) :
    Concludes engine outbox (engine.course []) (Reply.simple "OK").encode
      (run engine ⟨reader, incoming, outbox, .executing request⟩) := by
  rw [run_step _ rfl rfl]
  simp only [step, Engine.execute_of_isQuit hquit, afterOutcome]
  exact concludes_answer hlog hgone _ rfl (.simple "OK")

/-- Any other request comes first in what the session amounts to, if what follows amounts to the
course of the other requests. -/
theorem concludes_of_not_isQuit {engine : Engine} (hlog : engine.log.device.Reliable)
    {outbox : Outbox} (hgone : outbox.gone = false) {reader : Reader} {incoming : Source}
    {request : Request} (hquit : request.isQuit = false) {requests : List Request}
    {farewell : Bytes}
    (hrest : ∀ {next : Engine} {box : Outbox}, next.log.device.Reliable → box.gone = false →
      Concludes next box (next.course requests) farewell
        (run next ⟨reader, incoming, box, .reading⟩)) :
    Concludes engine outbox (engine.course (request :: requests)) farewell
      (run engine ⟨reader, incoming, outbox, .executing request⟩) := by
  obtain ⟨next, box, hreliable, hopen, hvocabulary, hkeyspace, hlogged, htaken, hrun⟩ :=
    exists_run_executing hlog hgone reader incoming hquit
  -- The engine may have been flushed since, so it is not the one that `Engine.course` goes on with.
  have hsame : next.course requests = (engine.execute request).2.course requests :=
    Engine.course_congr_engine
      (hvocabulary.trans (Engine.vocabulary_execute engine request).symm) hkeyspace requests
  have h := hrest hreliable hopen
  rw [hsame] at h
  rw [hrun]
  refine ⟨h.closed, ?_, h.keyspace_eq, ?_, h.staged⟩
  · rw [h.sent, htaken, Engine.course]
    simp
  · rw [h.logged, hlogged, Engine.course]
    split <;> simp

/-- A session whose client goes sooner or later carries out the requests that its reader hands out,
in order, and ends. -/
theorem concludes_run {engine : Engine} (hlog : engine.log.device.Reliable) {outbox : Outbox}
    (hgone : outbox.gone = false) (reader : Reader) {incoming : Source} (hends : incoming.Ends) :
    Concludes engine outbox (engine.course (carriedOut (reader.readAll incoming).requests))
      (farewell (reader.readAll incoming).requests (reader.readAll incoming).outcome)
      (run engine ⟨reader, incoming, outbox, .reading⟩) := by
  -- By induction on what the reader and its source can still hand out: each request uses some of it
  -- up, and any other answer ends the session.
  rw [run_reading engine reader hends]
  match hread : reader.read incoming with
  | (.ok (some request), next, rest) =>
    obtain ⟨hrequests, houtcome⟩ := Reader.readAll_of_request hread
    have hrestEnds := Reader.ends_of_read_eq_request hread hends
    rw [hrequests, houtcome]
    cases hquit : request.isQuit with
    | true =>
      rw [carriedOut_cons_of_isQuit hquit, farewell_cons_of_isQuit hquit]
      exact concludes_of_isQuit hlog hgone next rest hquit
    | false =>
      rw [carriedOut_cons_of_not_isQuit hquit, farewell_cons_of_not_isQuit hquit]
      exact concludes_of_not_isQuit hlog hgone hquit fun hlog hgone =>
        concludes_run hlog hgone next hrestEnds
  | (.ok none, next, rest) =>
    rw [Reader.readAll, Reader.readOn_of_end hread]
    exact concludes_logging hlog hgone next rest
  | (.error (.malformed fault), next, rest) =>
    rw [Reader.readAll, Reader.readOn_of_error hread]
    exact concludes_answer hlog hgone _ rfl fault.reply
  | (.error (.unreadable message), next, rest) =>
    rw [Reader.readAll, Reader.readOn_of_error hread]
    exact concludes_logging hlog hgone next rest
  | (.error (.truncated pending), next, rest) =>
    rw [Reader.readAll, Reader.readOn_of_error hread]
    exact concludes_logging hlog hgone next rest
termination_by reader.backlog + 2 * incoming.bytes.length
decreasing_by exact Reader.backlog_read_lt hread

/-! ## Whole sessions -/

variable {engine : Engine} {source : Source} {stream : Bytes}

/-- A whole session over a log that does not fail, with a client that takes its replies. -/
theorem concludes_serve (hlog : engine.log.device.Reliable) (source : Source)
    {transcript : Transcript} (h : Source.transcript (source ++ [.ended]) = transcript) :
    Concludes engine {} (engine.course (carriedOut transcript.requests))
      (farewell transcript.requests transcript.outcome) (serve engine source false) := by
  rw [← h]
  exact concludes_run hlog rfl {} (Source.ends_append_ended source)

end Session

end LogStore
