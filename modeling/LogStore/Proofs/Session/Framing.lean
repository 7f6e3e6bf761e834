import LogStore.Proofs.Reply.Answers
import LogStore.Proofs.Session.Progress

/-!
# What the client of a session can take apart

The replies of a session are those to the requests of its stream that ask for something, in order,
and possibly a last one about bytes that are no request (`Progress.follows_progress`). The client is
sent some of them from the beginning on, each whole. It gets them back by their framing, if none of
the requests forges its reply, and only then (`Session.split_sent_iff`).
-/

namespace LogStore

/-- The exchange is with a request that names an unknown command, with a line end in the name. -/
def Exchange.Forged (exchange : Exchange) (vocabulary : Vocabulary) : Prop :=
  ∃ request, exchange.request = some request ∧ request.Forges vocabulary

/-- The reply of the exchange is no array, and no text in it holds a line end unless its request
forges it. -/
structure Exchange.Faithful (exchange : Exchange) (vocabulary : Vocabulary) : Prop where
  flat : exchange.reply.isFlat
  unbroken : exchange.reply.Unbroken ↔ ¬ exchange.Forged vocabulary

/-- Whether a session in this stage reads no more. -/
def Stage.closing : Stage → Bool
  | .logging true | .replying true | .closed | .failed _ => true
  | _ => false

/-- The requests that the session has still to carry out. -/
def Session.pending (session : Session) : List Request :=
  match session.stage with
  | .reading | .logging false | .replying false =>
    (session.reader.readAll session.incoming).requests
  | .executing request => request :: (session.reader.readAll session.incoming).requests
  | _ => []

namespace Session

theorem pending_of_closing {session : Session} (h : session.stage.closing) :
    session.pending = [] := by
  unfold pending
  unfold Stage.closing at h
  split at h <;> simp_all

/-- A session that reads on has the same requests before it, and one that closes has none. -/
theorem pending_isPrefix {session : Session}
    (h : session.stage = .reading ∨ ∃ final, session.stage = .logging final) :
    session.pending <+: (session.reader.readAll session.incoming).requests := by
  obtain ⟨reader, incoming, outbox, stage⟩ := session
  rcases h with rfl | ⟨final, rfl⟩
  · exact List.prefix_refl _
  · cases final with
    | false => exact List.prefix_refl _
    | true => exact List.nil_prefix

/-- A step that reads takes a request off the stream, or leaves the stream as it is, or closes. -/
theorem pending_stepReading {session : Session} (hstage : session.stage = .reading) :
    session.stepReading.pending <+: session.pending := by
  have hpending : session.pending = (session.reader.readAll session.incoming).requests := by
    simp only [pending, hstage]
  rw [hpending]
  unfold stepReading
  split
  · rename_i request reader hpoll
    have hread := Reader.read_of_poll_eq_request hpoll session.incoming
    rw [(Reader.readAll_of_request hread).1]
    exact List.prefix_refl _
  · rename_i fault reader _
    obtain ⟨_, _, hclosing⟩ := answer_cases { session with reader } fault.reply (.logging true)
    rw [pending_of_closing (by rw [hclosing.elim id id]; rfl)]
    exact List.nil_prefix
  · rename_i hpoll
    split
    · exact hpending ▸ List.prefix_refl _
    · rename_i b bytes incoming hincoming
      have hread := Reader.readOn_data hpoll (List.cons_ne_nil b bytes) incoming []
      simp only [pending, hstage, hincoming, Reader.readAll, hread]
      exact List.prefix_refl _
    · rw [pending_of_closing rfl]
      exact List.nil_prefix

/-- The steps between two readings leave the stream as it is, or close. -/
theorem pending_step_of_flushing (engine : Engine) {session : Session}
    (hreading : session.stage ≠ .reading)
    (hexecuting : ∀ request, session.stage ≠ .executing request) :
    (step engine session).2.pending <+: session.pending ∧
      (session.stage.closing → (step engine session).2.stage.closing) := by
  obtain ⟨reader, incoming, outbox, stage⟩ := session
  cases stage with
  | reading => exact absurd rfl hreading
  | executing request => exact absurd rfl (hexecuting request)
  | logging final =>
    unfold step
    dsimp only
    split
    · cases final with
      | false => exact ⟨List.prefix_refl _, nofun⟩
      | true => exact ⟨List.prefix_refl _, fun _ => rfl⟩
    · exact ⟨List.nil_prefix, fun _ => rfl⟩
  | replying final =>
    unfold step
    cases final with
    | true => exact ⟨List.nil_prefix, fun _ => rfl⟩
    | false =>
      dsimp only
      split
      · exact ⟨List.prefix_refl _, nofun⟩
      · exact ⟨List.nil_prefix, fun _ => rfl⟩
  | closed => exact ⟨List.prefix_refl _, id⟩
  | failed error => exact ⟨List.prefix_refl _, id⟩

/-- A fault is answered on the way out. -/
theorem closing_stepReading_of_fault {session : Session} {fault : Fault} {reader : Reader}
    (hpoll : session.reader.poll = some (.error fault, reader)) :
    session.stepReading.stage.closing := by
  obtain ⟨_, _, hstage⟩ := answer_cases { session with reader } fault.reply (.logging true)
  unfold stepReading
  rw [hpoll]
  dsimp only
  rw [hstage.elim id id]
  rfl

end Session

namespace Progress

variable {progress : Progress}

/-- The exchanges are with those of the requests that ask for something, in order, up to where the
session stands; one about bytes that are no request may follow on the way out. -/
def Follows (requests : List Request) (progress : Progress) : Prop :=
  ∃ handled farewell, handled ++ progress.session.pending <+: requests ∧
    progress.exchanges.map (·.request) =
      (handled.filter (·.arguments ≠ [])).map some ++ farewell ∧
    (farewell = [] ∨ farewell = [none] ∧ progress.session.stage.closing)

variable {requests : List Request}

/-- A step that answers nothing. -/
theorem follows_of_silent (h : progress.Follows requests) (hsilent : progress.exchange? = none)
    (hpending : progress.next.session.pending <+: progress.session.pending)
    (hclosing : progress.session.stage.closing → progress.next.session.stage.closing) :
    progress.next.Follows requests := by
  obtain ⟨handled, farewell, hstream, hexchanges, hfarewell⟩ := h
  have hsame : progress.next.exchanges = progress.exchanges := by
    rw [next, hsilent]
    exact List.append_nil _
  refine ⟨handled, farewell, ?_, by rw [hsame, hexchanges], ?_⟩
  · exact ((List.prefix_append_right_inj handled).2 hpending).trans hstream
  · exact hfarewell.imp_right (And.imp_right hclosing)

/-- A step that answers bytes that are no request is the last one that answers. -/
theorem follows_of_fault (h : progress.Follows requests)
    (hopen : ¬ progress.session.stage.closing) {reply : Reply}
    (hexchange : progress.exchange? = some ⟨none, reply⟩)
    (hclosing : progress.next.session.stage.closing) : progress.next.Follows requests := by
  obtain ⟨handled, farewell, hstream, hexchanges, hfarewell⟩ := h
  have hnothing : farewell = [] := hfarewell.resolve_right fun ⟨_, hclosed⟩ => hopen hclosed
  refine ⟨handled, [none], ?_, ?_, .inr ⟨rfl, hclosing⟩⟩
  · rw [Session.pending_of_closing hclosing, List.append_nil]
    exact (List.prefix_append handled _).trans hstream
  · rw [hnothing, List.append_nil] at hexchanges
    simp only [next, hexchange, Option.toList_some, List.map_append, List.map_cons, List.map_nil,
      hexchanges]

/-- A request that is carried out is answered if it asks for something. -/
theorem exchange?_of_executing {request : Request}
    (hstage : progress.session.stage = .executing request) :
    (request.arguments = [] ∧ progress.exchange? = none) ∨
      request.arguments ≠ [] ∧ ∃ reply, progress.exchange? = some ⟨some request, reply⟩ := by
  by_cases hasks : request.arguments = []
  · refine .inl ⟨hasks, ?_⟩
    simp only [exchange?, hstage, Engine.execute_of_arguments_eq_nil hasks]
  · refine .inr ⟨hasks, ?_⟩
    cases hquit : request.isQuit with
    | true =>
      refine ⟨.simple "OK", ?_⟩
      simp only [exchange?, hstage, Engine.execute_of_isQuit hquit]
    | false =>
      obtain ⟨reply, hreply⟩ := Engine.exists_reply hasks hquit progress.engine
      exact ⟨reply, by simp only [exchange?, hstage, hreply]⟩

theorem follows_of_executing (h : progress.Follows requests) {request : Request}
    (hstage : progress.session.stage = .executing request) : progress.next.Follows requests := by
  obtain ⟨handled, farewell, hstream, hexchanges, hfarewell⟩ := h
  have hnothing : farewell = [] := hfarewell.resolve_right fun ⟨_, hclosed⟩ => by
    rw [hstage] at hclosed
    cases hclosed
  rw [hnothing, List.append_nil] at hexchanges
  have hnext := session_next_of_executing hstage
  obtain ⟨hreader, hincoming, hcases⟩ :=
    Session.afterOutcome_cases progress.session request.flush (progress.engine.execute request).1
  have hpending := Session.pending_isPrefix hcases
  rw [hreader, hincoming, ← hnext] at hpending
  have hhere : progress.session.pending =
      request :: (progress.session.reader.readAll progress.session.incoming).requests := by
    simp only [Session.pending, hstage]
  -- The request goes over from those that are pending to those that were handled.
  refine ⟨handled ++ [request], [], ?_, ?_, .inl rfl⟩
  · refine List.IsPrefix.trans ?_ hstream
    rw [hhere, List.append_assoc, List.singleton_append]
    exact (List.prefix_append_right_inj handled).2 (List.cons_prefix_cons.2 ⟨rfl, hpending⟩)
  · rw [List.append_nil, List.filter_append, List.map_append, ← hexchanges]
    rcases exchange?_of_executing hstage with ⟨hasks, hsilent⟩ | ⟨hasks, reply, hreply⟩
    · simp [next, hsilent, hasks]
    · simp [next, hreply, hasks]

theorem follows_next (h : progress.Follows requests) : progress.next.Follows requests := by
  have hflushing : progress.exchange? = none → progress.session.stage ≠ .reading →
      (∀ request, progress.session.stage ≠ .executing request) →
        progress.next.Follows requests := by
    intro hsilent hreading hexecuting
    obtain ⟨hpending, hclosing⟩ :=
      Session.pending_step_of_flushing progress.engine hreading hexecuting
    exact follows_of_silent h hsilent hpending hclosing
  cases hstage : progress.session.stage with
  | reading =>
    have hnext := session_next_of_reading hstage
    have hopen : ¬ progress.session.stage.closing := by
      rw [hstage]
      exact nofun
    have hsilent : progress.exchange? = none → progress.next.Follows requests := fun hnone =>
      follows_of_silent h hnone (hnext ▸ Session.pending_stepReading hstage) (absurd · hopen)
    rcases hpoll : progress.session.reader.poll with _ | ⟨fault | request, reader⟩
    · exact hsilent (by simp only [exchange?, hstage, hpoll])
    · have hexchange : progress.exchange? = some ⟨none, fault.reply⟩ := by
        simp only [exchange?, hstage, hpoll]
      refine follows_of_fault h hopen hexchange ?_
      rw [hnext]
      exact Session.closing_stepReading_of_fault hpoll
    · exact hsilent (by simp only [exchange?, hstage, hpoll])
  | executing request => exact follows_of_executing h hstage
  | logging | replying | closed | failed =>
    exact hflushing (by simp only [exchange?, hstage]) (by simp [hstage]) (by simp [hstage])

/-- The exchanges of a session follow the requests that its reader hands out. -/
theorem follows_progress (engine : Engine) {session : Session} (hstage : session.stage = .reading)
    (n : Nat) :
    (session.progress engine n).Follows (session.reader.readAll session.incoming).requests := by
  induction n with
  | zero =>
    refine ⟨[], [], ?_, rfl, .inl rfl⟩
    simp only [List.nil_append, Session.progress, Session.pending, hstage]
    exact List.prefix_refl _
  | succ n ih => exact follows_next ih

/-! ## What is answered -/

theorem vocabulary_next (progress : Progress) :
    progress.next.engine.vocabulary = progress.engine.vocabulary := by
  unfold next Session.step
  split
  · rfl
  · exact Engine.vocabulary_execute _ _
  · have hflush : progress.engine.flush.2.vocabulary = progress.engine.vocabulary := by
      unfold Engine.flush
      split <;> rfl
    rw [← hflush]
    split <;> rename_i hanswer <;> rw [hanswer]
  · split <;> rfl
  · rfl
  · rfl
  · rfl

theorem vocabulary_progress (engine : Engine) (session : Session) (n : Nat) :
    (session.progress engine n).engine.vocabulary = engine.vocabulary := by
  induction n with
  | zero => rfl
  | succ n ih => exact (vocabulary_next _).trans ih

theorem faithful_exchange? {exchange : Exchange} (h : progress.exchange? = some exchange) :
    exchange.Faithful progress.engine.vocabulary := by
  unfold exchange? at h
  split at h
  · split at h
    · cases h
      exact ⟨rfl, iff_of_true (Fault.unbroken_reply _) nofun⟩
    · cases h
  · split at h
    · cases h
    · rename_i hreply
      cases h
      obtain ⟨hflat, hunbroken⟩ := Engine.unbroken_execute_iff hreply
      refine ⟨hflat, hunbroken.trans (not_congr ⟨fun hforges => ⟨_, rfl, hforges⟩, ?_⟩)⟩
      rintro ⟨_, heq, hforges⟩
      cases heq
      exact hforges
    · rename_i hquit
      cases h
      refine ⟨rfl, iff_of_true ?_ ?_⟩
      · exact Bytes.not_lineEnd_infix_of_notMem (by decide +kernel)
      · rintro ⟨_, heq, hforges⟩
        cases heq
        exact Engine.not_forges_of_quit hquit _ hforges
  · cases h

theorem faithful_progress (engine : Engine) (session : Session) (n : Nat) :
    ∀ exchange ∈ (session.progress engine n).exchanges, exchange.Faithful engine.vocabulary := by
  induction n with
  | zero => exact nofun
  | succ n ih =>
    intro exchange hmem
    rcases List.mem_append.1 hmem with hbefore | hnow
    · exact ih exchange hbefore
    · have hfaithful := faithful_exchange? (Option.mem_toList.1 hnow)
      rwa [vocabulary_progress] at hfaithful

end Progress

/-- The first of the exchanges are with the first of the requests, and possibly one more. -/
theorem Progress.Follows.requests_take {progress : Progress} {requests : List Request}
    (h : progress.Follows requests) (k : Nat) :
    ∃ asked, asked <+: requests.filter (·.arguments ≠ []) ∧
      ((progress.exchanges.take k).map (·.request) = asked.map some ∨
        (progress.exchanges.take k).map (·.request) = asked.map some ++ [none]) := by
  obtain ⟨handled, farewell, hstream, hexchanges, hfarewell⟩ := h
  refine ⟨(handled.filter (·.arguments ≠ [])).take k, ?_, ?_⟩
  · have hhandled := ((List.prefix_append handled _).trans hstream).filter (·.arguments ≠ [])
    exact (List.take_prefix k _).trans hhandled
  · rw [List.map_take, hexchanges, List.take_append, ← List.map_take]
    rcases hfarewell with rfl | ⟨rfl, _⟩
    · rw [List.take_nil, List.append_nil]
      exact .inl rfl
    · cases k - ((handled.filter (·.arguments ≠ [])).map some).length with
      | zero => exact .inl (List.append_nil _)
      | succ =>
        rw [List.take_succ_cons, List.take_nil]
        exact .inr rfl

/-- Faithful replies are split as they were sent if none of them is forged, and only then. -/
theorem Exchange.split_eq_some_iff {answered : List Exchange} {vocabulary : Vocabulary}
    (h : ∀ exchange ∈ answered, exchange.Faithful vocabulary) :
    Reply.split (answered.flatMap (·.reply.encode)) = some (answered.map (·.reply.encode)) ↔
      ∀ exchange ∈ answered, ¬ exchange.Forged vocabulary := by
  have hflat : ∀ reply ∈ answered.map (·.reply), reply.isFlat := by
    intro reply hreply
    obtain ⟨exchange, hmem, rfl⟩ := List.mem_map.1 hreply
    exact (h exchange hmem).flat
  have hsplit := Reply.split_eq_some_iff hflat
  rw [List.flatMap_map, List.map_map] at hsplit
  refine hsplit.trans ⟨fun hall exchange hmem => ?_, fun hall reply hreply => ?_⟩
  · exact (h exchange hmem).unbroken.1 (hall _ (List.mem_map_of_mem hmem))
  · obtain ⟨exchange, hmem, rfl⟩ := List.mem_map.1 hreply
    exact (h exchange hmem).unbroken.2 (hall exchange hmem)

/-- **When a client can take apart what a session sends.** On every engine, with every vocabulary,
keyspace and log, and whatever the client sends, it is handed whole replies: to the requests of its
stream that ask for something, one each and in order, from the first on, and possibly one about
bytes that are no request behind them. No text in a reply holds a line end, unless the request names
an unknown command with a line end in the name. Splitting what was handed over by its framing gives
exactly these replies if there is no such request among those answered, and only then. -/
theorem Session.split_sent_iff (engine : Engine) (incoming : Source) (gone : Bool) (n : Nat) :
    let session : Session := { incoming, outbox := { gone } }
    let sent := (session.progress engine n).session.outbox.sent
    ∃ answered, answered <+: (session.progress engine n).exchanges ∧
      sent = answered.flatMap (·.reply.encode) ∧
      (∃ requests, requests <+: incoming.transcript.requests.filter (·.arguments ≠ []) ∧
        (answered.map (·.request) = requests.map some ∨
          answered.map (·.request) = requests.map some ++ [none])) ∧
      (∀ exchange ∈ answered, exchange.Faithful engine.vocabulary) ∧
      (Reply.split sent = some (answered.map (·.reply.encode)) ↔
        ∀ exchange ∈ answered, ¬ exchange.Forged engine.vocabulary) := by
  intro session sent
  have horderly : (session.progress engine n).Orderly :=
    Progress.orderly_progress engine rfl rfl n
  obtain ⟨k, hsent⟩ := horderly.whole
  have hfollows : (session.progress engine n).Follows incoming.transcript.requests :=
    Progress.follows_progress engine rfl n
  have hfaithful : ∀ exchange ∈ (session.progress engine n).exchanges.take k,
      exchange.Faithful engine.vocabulary := fun exchange hmem =>
    Progress.faithful_progress engine session n exchange (List.mem_of_mem_take hmem)
  refine ⟨_, List.take_prefix k _, hsent, hfollows.requests_take k, hfaithful, ?_⟩
  have hsplit := Exchange.split_eq_some_iff hfaithful
  rwa [← hsent] at hsplit

end LogStore
