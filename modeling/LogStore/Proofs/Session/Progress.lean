import LogStore.Proofs.Engine.Accounts
import LogStore.Proofs.Session.Conversation

/-!
# A session step by step

`Session.progress` takes any number of steps and keeps a record beside them: what was written, what
the log has taken of it, and what was answered. A run is some number of steps
(`Session.exists_run_eq_progress`). Over every log and with every client, gone or not, the log holds
a beginning of what was written, and the rest is on the stage as long as the log has not failed
(`Progress.sound_progress`). The replies leave in order and whole (`Progress.orderly_progress`).
-/

namespace LogStore

/-- What is answered, and with what. -/
structure Exchange where
  /-- The request, unless it is bytes that are none. -/
  request : Option Request
  /-- The reply. -/
  reply : Reply

/-- What has come of a session and its engine. -/
structure Progress where
  /-- The engine. -/
  engine : Engine
  /-- The session. -/
  session : Session
  /-- What was on the stage to begin with, and the raw bytes of the writes that have succeeded, in
  order. -/
  written : Bytes := engine.staged
  /-- The bytes that the log has taken without an error, in order. -/
  logged : Bytes := []
  /-- The raw bytes of the writes that have succeeded since the stage was flushed. -/
  unflushed : Bytes := []
  /-- What was answered, in order. -/
  exchanges : List Exchange := []

namespace Progress

/-- What the next step answers, if it answers something. -/
def exchange? (progress : Progress) : Option Exchange :=
  match progress.session.stage with
  | .reading =>
    match progress.session.reader.poll with
    | some (.error fault, _) => some ⟨none, fault.reply⟩
    | _ => none
  | .executing request =>
    match (progress.engine.execute request).1 with
    | .silent => none
    | .reply reply => some ⟨some request, reply⟩
    | .quit => some ⟨some request, .simple "OK"⟩
  | _ => none

/-- The raw bytes of the write that the next step carries out with success, if it does. -/
def writing (progress : Progress) : Bytes :=
  match progress.session.stage with
  | .executing request => if progress.engine.isWrite request then request.raw else []
  | _ => []

/-- The bytes that the log takes in the next step. -/
def logging (progress : Progress) : Bytes :=
  match progress.session.stage with
  | .logging _ => progress.engine.logged
  | _ => []

/-- One step. -/
def next (progress : Progress) : Progress where
  engine := (Session.step progress.engine progress.session).1
  session := (Session.step progress.engine progress.session).2
  written := progress.written ++ progress.writing
  logged := progress.logged ++ progress.logging
  unflushed :=
    match progress.session.stage with
    | .logging _ => []
    | _ => progress.unflushed ++ progress.writing
  exchanges := progress.exchanges ++ progress.exchange?.toList

end Progress

/-- The progress of a session after `n` steps. -/
def Session.progress (engine : Engine) (session : Session) : (n : Nat) → Progress
  | 0 => { engine, session }
  | n + 1 => (progress engine session n).next

/-- The first step may be taken before the others are counted. -/
theorem Session.progress_succ (engine : Engine) (session : Session) (n : Nat) :
    (session.progress engine (n + 1)).engine =
        ((step engine session).2.progress (step engine session).1 n).engine ∧
      (session.progress engine (n + 1)).session =
        ((step engine session).2.progress (step engine session).1 n).session := by
  induction n with
  | zero => exact ⟨rfl, rfl⟩
  | succ n ih =>
    have hnext : ∀ {a b : Progress}, a.engine = b.engine ∧ a.session = b.session →
        a.next.engine = b.next.engine ∧ a.next.session = b.next.session := by
      intro a b ⟨hengine, hsession⟩
      simp only [Progress.next, hengine, hsession, and_self]
    exact hnext ih

/-- A session that runs comes to rest after some number of steps. -/
theorem Session.exists_run_eq_progress (engine : Engine) (session : Session) :
    ∃ n, run engine session =
      ((session.progress engine n).engine, (session.progress engine n).session) := by
  fun_induction run engine session with
  | case1 engine session _ next ih =>
    obtain ⟨n, hrun⟩ := ih
    obtain ⟨hengine, hsession⟩ := progress_succ engine session n
    exact ⟨n + 1, by rw [hrun, hengine, hsession]⟩
  | case2 engine session _ => exact ⟨0, rfl⟩

namespace Outbox

variable {outbox : Outbox}

/-- What is handed over when a reply is gathered: nothing, if there is room for it; what was
gathered before, if there is none; and the reply behind that, if it is as long as the whole
outbox. -/
theorem sent_push (h : outbox.gone = false) (reply : Bytes) :
    (outbox.gathered.length + reply.length ≤ capacity ∧ reply.length < capacity ∧
        (outbox.push reply).2.sent = outbox.sent) ∨
      (capacity < outbox.gathered.length + reply.length ∧ reply.length < capacity ∧
        (outbox.push reply).2.sent = outbox.taken) ∨
      capacity ≤ reply.length ∧ (outbox.push reply).2.sent = outbox.taken ++ reply := by
  unfold push
  by_cases hroom : outbox.gathered.length + reply.length ≤ capacity
  · rw [if_pos hroom, gather]
    by_cases hshort : reply.length < capacity
    · rw [if_pos hshort]
      exact .inl ⟨hroom, hshort, rfl⟩
    · have hempty : outbox.gathered = [] := List.length_eq_zero_iff.1 (by omega)
      rw [if_neg hshort, h, taken, hempty, List.append_nil]
      exact .inr (.inr ⟨by omega, rfl⟩)
  · obtain ⟨flushed, hflush, hgone, hsent, _⟩ := exists_flush_eq h
    rw [if_neg hroom, hflush]
    dsimp only
    rw [gather]
    by_cases hshort : reply.length < capacity
    · rw [if_pos hshort]
      exact .inr (.inl ⟨by omega, hshort, hsent⟩)
    · rw [if_neg hshort, hgone]
      exact .inr (.inr ⟨by omega, congrArg (· ++ reply) hsent⟩)

/-- A client that is gone is handed nothing, and does not come back. -/
theorem of_gone (h : outbox.gone = true) (reply : Bytes) :
    (outbox.flush.2.gone = true ∧ outbox.flush.2.sent = outbox.sent) ∧
      (outbox.push reply).2.gone = true ∧ (outbox.push reply).2.sent = outbox.sent := by
  have hflush : outbox.flush.2 = outbox := by
    unfold flush
    by_cases hempty : outbox.gathered = []
    · rw [if_pos hempty]
    · rw [if_neg hempty, if_pos h]
  have hgather : (outbox.gather reply).2.gone = true ∧
      (outbox.gather reply).2.sent = outbox.sent := by
    unfold gather
    by_cases hshort : reply.length < capacity
    · rw [if_pos hshort]
      exact ⟨h, rfl⟩
    · rw [if_neg hshort, if_pos h]
      exact ⟨h, rfl⟩
  refine ⟨by rw [hflush]; exact ⟨h, rfl⟩, ?_⟩
  unfold push
  split
  · exact hgather
  · split
    · rename_i box hsame
      have hbox : box = outbox := by rw [← hflush, hsame]
      rw [hbox]
      exact hgather
    · rename_i box hsame
      have hbox : box = outbox := by rw [← hflush, hsame]
      rw [hbox]
      exact ⟨h, rfl⟩

end Outbox

namespace Session

/-! ## Parts of a step -/

theorem outbox_answer (session : Session) (reply : Reply) (stage : Stage) :
    (session.answer reply stage).outbox = (session.outbox.push reply.encode).2 := by
  unfold Session.answer
  split <;> rename_i hpush <;> rw [hpush]

/-- An answer goes on to where it is told to, or out; what is to be read stays. -/
theorem answer_cases (session : Session) (reply : Reply) (stage : Stage) :
    (session.answer reply stage).reader = session.reader ∧
      (session.answer reply stage).incoming = session.incoming ∧
      ((session.answer reply stage).stage = stage ∨
        (session.answer reply stage).stage = .logging true) := by
  unfold Session.answer
  split
  · exact ⟨rfl, rfl, .inl rfl⟩
  · exact ⟨rfl, rfl, .inr rfl⟩

/-- Behind a request that was carried out the session reads on or flushes. -/
theorem afterOutcome_cases (session : Session) (flush : Bool) (outcome : Outcome) :
    (session.afterOutcome flush outcome).reader = session.reader ∧
      (session.afterOutcome flush outcome).incoming = session.incoming ∧
      ((session.afterOutcome flush outcome).stage = .reading ∨
        ∃ final, (session.afterOutcome flush outcome).stage = .logging final) := by
  cases outcome with
  | silent => cases flush <;> exact ⟨rfl, rfl, by simp [Session.afterOutcome]⟩
  | reply reply =>
    obtain ⟨hreader, hincoming, hstage⟩ :=
      answer_cases session reply (if flush then .logging false else .reading)
    refine ⟨hreader, hincoming, ?_⟩
    cases flush with
    | false => exact hstage.imp_right fun h => ⟨true, h⟩
    | true => exact .inr (hstage.elim (fun h => ⟨false, h⟩) fun h => ⟨true, h⟩)
  | quit =>
    obtain ⟨hreader, hincoming, hstage⟩ := answer_cases session (.simple "OK") (.logging true)
    exact ⟨hreader, hincoming, .inr ⟨true, hstage.elim id id⟩⟩

/-- A step that reads comes to a request that is what its raw bytes say, or reads on, or flushes. -/
theorem stepReading_cases {session : Session} (hreader : session.reader.Sound)
    (hstage : session.stage = .reading) :
    session.stepReading.reader.Sound ∧
      ((session.stepReading.stage = .reading ∨
          ∃ final, session.stepReading.stage = .logging final) ∨
        ∃ request, session.stepReading.stage = .executing request ∧ request.Intact) := by
  unfold Session.stepReading
  split
  · obtain ⟨hnext, hintact⟩ := Reader.sound_of_poll_eq_request hreader ‹_›
    exact ⟨hnext, .inr ⟨_, rfl, hintact⟩⟩
  · rename_i fault reader hpoll
    obtain ⟨hsame, _, hnext⟩ := answer_cases { session with reader } fault.reply (.logging true)
    refine ⟨?_, .inl (.inr ⟨true, hnext.elim id id⟩)⟩
    rw [hsame]
    exact Reader.sound_of_poll_eq_fault hreader hpoll
  · rename_i hpoll
    split
    · exact ⟨hreader, .inl (.inl hstage)⟩
    · exact ⟨Reader.sound_of_ahead_eq_none (Reader.of_poll_eq_none hpoll).1, .inl (.inl hstage)⟩
    · exact ⟨hreader, .inl (.inr ⟨true, rfl⟩)⟩

end Session

namespace Progress

variable {progress : Progress}

theorem session_next_of_reading (h : progress.session.stage = .reading) :
    progress.next.session = progress.session.stepReading := by
  simp only [next, Session.step, h]

theorem session_next_of_executing {request : Request}
    (h : progress.session.stage = .executing request) :
    progress.next.session = progress.session.afterOutcome request.flush
      (progress.engine.execute request).1 := by
  simp only [next, Session.step, h]

/-! ## What a step does to the outbox -/

/-- A step gathers its reply, if it answers something; or it flushes the replies; or it leaves them
alone. -/
theorem outbox_next (progress : Progress) :
    (∃ exchange, progress.exchange? = some exchange ∧ progress.logging = [] ∧
        progress.next.session.outbox =
          (progress.session.outbox.push exchange.reply.encode).2) ∨
      progress.exchange? = none ∧
        ((∃ final, progress.session.stage = .replying final ∧
            progress.next.session.outbox = progress.session.outbox.flush.2) ∨
          progress.next.session.outbox = progress.session.outbox) := by
  unfold exchange? logging next Session.step
  -- The stages that answer are those that `exchange?` looks at, and they leave the log alone.
  cases progress.session.stage with
  | reading =>
    unfold Session.stepReading
    cases progress.session.reader.poll with
    | some answer =>
      obtain ⟨answer, reader⟩ := answer
      cases answer with
      | ok request => exact .inr ⟨rfl, .inr rfl⟩
      | error fault => exact .inl ⟨_, rfl, rfl, Session.outbox_answer _ _ _⟩
    | none =>
      refine .inr ⟨rfl, .inr ?_⟩
      dsimp only
      split <;> rfl
  | executing request =>
    dsimp only
    cases (progress.engine.execute request).1 with
    | silent => exact .inr ⟨rfl, .inr rfl⟩
    | reply reply => exact .inl ⟨_, rfl, rfl, Session.outbox_answer _ _ _⟩
    | quit => exact .inl ⟨_, rfl, rfl, Session.outbox_answer _ _ _⟩
  | logging final =>
    refine .inr ⟨rfl, .inr ?_⟩
    dsimp only
    split <;> rfl
  | replying final =>
    refine .inr ⟨rfl, .inl ⟨final, rfl, ?_⟩⟩
    cases final with
    | true => rfl
    | false =>
      dsimp only
      split <;> rename_i hflush <;> rw [hflush]
  | closed => exact .inr ⟨rfl, .inr rfl⟩
  | failed error => exact .inr ⟨rfl, .inr rfl⟩

/-! ## A client that is there -/

/-- The outbox takes what is answered. -/
theorem taken_next (h : progress.session.outbox.gone = false) :
    progress.next.session.outbox.gone = false ∧
      progress.next.session.outbox.taken =
        progress.session.outbox.taken ++
          progress.exchange?.toList.flatMap (·.reply.encode) := by
  rcases progress.outbox_next with
    ⟨exchange, hexchange, _, hbox⟩ | ⟨hsilent, ⟨final, _, hbox⟩ | hbox⟩
  · obtain ⟨box, hpush, hgone, htaken⟩ := Outbox.exists_push_eq h exchange.reply.encode
    rw [hbox, hpush, hexchange]
    exact ⟨hgone, by simp [htaken]⟩
  · obtain ⟨box, hflush, hgone, hsent, hgathered⟩ := Outbox.exists_flush_eq h
    rw [hbox, hflush, hsilent]
    exact ⟨hgone, by rw [Outbox.taken, hsent, hgathered]; rfl⟩
  · rw [hbox, hsilent]
    exact ⟨h, (List.append_nil _).symm⟩

/-- What a step hands over: nothing; or everything, at a flush of the replies; or everything that
was gathered, to make room for a reply; or a long reply behind it. -/
theorem sent_next (h : progress.session.outbox.gone = false) :
    progress.next.session.outbox.sent = progress.session.outbox.sent ∨
      ((∃ final, progress.session.stage = .replying final) ∧
        progress.next.session.outbox.sent = progress.session.outbox.taken) ∨
      ∃ exchange, progress.exchange? = some exchange ∧ progress.logging = [] ∧
        ((Outbox.capacity <
            progress.session.outbox.gathered.length + exchange.reply.encode.length ∧
            progress.next.session.outbox.sent = progress.session.outbox.taken) ∨
          Outbox.capacity ≤ exchange.reply.encode.length ∧
            progress.next.session.outbox.sent =
              progress.session.outbox.taken ++ exchange.reply.encode) := by
  rcases progress.outbox_next with
    ⟨exchange, hexchange, hlogging, hbox⟩ | ⟨_, ⟨final, hstage, hbox⟩ | hbox⟩
  · rw [hbox]
    rcases Outbox.sent_push h exchange.reply.encode with
      ⟨_, _, hsent⟩ | ⟨hroom, _, hsent⟩ | ⟨hlong, hsent⟩
    · exact .inl hsent
    · exact .inr (.inr ⟨exchange, hexchange, hlogging, .inl ⟨hroom, hsent⟩⟩)
    · exact .inr (.inr ⟨exchange, hexchange, hlogging, .inr ⟨hlong, hsent⟩⟩)
  · obtain ⟨box, hflush, _, hsent, _⟩ := Outbox.exists_flush_eq h
    rw [hbox, hflush]
    exact .inr (.inl ⟨⟨final, hstage⟩, hsent⟩)
  · exact .inl (congrArg Outbox.sent hbox)

/-! ## The replies -/

/-- What is true of every session that has begun with an empty outbox. -/
structure Orderly (progress : Progress) : Prop where
  whole : ∃ k, progress.session.outbox.sent =
    (progress.exchanges.take k).flatMap (·.reply.encode)
  taken : progress.session.outbox.gone = false →
    progress.session.outbox.taken = progress.exchanges.flatMap (·.reply.encode)
  refused : progress.session.outbox.gone = true → progress.session.outbox.sent = []

theorem of_gone_next (h : progress.session.outbox.gone = true) :
    progress.next.session.outbox.gone = true ∧
      progress.next.session.outbox.sent = progress.session.outbox.sent := by
  rcases progress.outbox_next with
    ⟨exchange, _, _, hbox⟩ | ⟨_, ⟨_, _, hbox⟩ | hbox⟩
  · rw [hbox]
    exact (Outbox.of_gone h exchange.reply.encode).2
  · rw [hbox]
    exact (Outbox.of_gone h []).1
  · rw [hbox]
    exact ⟨h, rfl⟩

theorem gone_next (progress : Progress) :
    progress.next.session.outbox.gone = progress.session.outbox.gone := by
  cases h : progress.session.outbox.gone with
  | false => exact (taken_next h).1
  | true => exact (of_gone_next h).1

theorem orderly_next (h : progress.Orderly) : progress.next.Orderly := by
  have hexchanges : progress.next.exchanges = progress.exchanges ++ progress.exchange?.toList := rfl
  cases hgone : progress.session.outbox.gone with
  | true =>
    obtain ⟨hnext, hsame⟩ := of_gone_next hgone
    have hsent : progress.next.session.outbox.sent = [] := hsame.trans (h.refused hgone)
    exact ⟨⟨0, hsent⟩, fun hthere => absurd (hnext.symm.trans hthere) nofun, fun _ => hsent⟩
  | false =>
    obtain ⟨hnext, htaken⟩ := taken_next hgone
    rw [h.taken hgone, ← List.flatMap_append, ← hexchanges] at htaken
    refine ⟨?_, fun _ => htaken, fun haway => absurd (hnext.symm.trans haway) nofun⟩
    -- What is handed over ends with the exchanges before, with those so far, or where it ended.
    have hbefore : progress.session.outbox.taken =
        (progress.next.exchanges.take progress.exchanges.length).flatMap (·.reply.encode) := by
      rw [hexchanges, List.take_left, h.taken hgone]
    rcases sent_next hgone with hsame | ⟨_, hall⟩ | ⟨exchange, hexchange, _, ⟨_, hall⟩ | ⟨_, hall⟩⟩
    · obtain ⟨k, hsent⟩ := h.whole
      refine ⟨min k progress.exchanges.length, ?_⟩
      rw [hsame, hsent, hexchanges, ← List.take_take, List.take_left]
    · exact ⟨_, hall.trans hbefore⟩
    · exact ⟨_, hall.trans hbefore⟩
    · refine ⟨progress.next.exchanges.length, ?_⟩
      rw [List.take_length, hall, h.taken hgone, hexchanges, hexchange, List.flatMap_append]
      simp

theorem orderly_progress (engine : Engine) {session : Session}
    (hsent : session.outbox.sent = []) (hgathered : session.outbox.gathered = []) (n : Nat) :
    (session.progress engine n).Orderly := by
  induction n with
  | zero =>
    refine ⟨⟨0, hsent⟩, fun _ => ?_, fun _ => hsent⟩
    rw [Session.progress, Outbox.taken, hsent, hgathered]
    rfl
  | succ n ih => exact orderly_next ih

theorem gone_progress (engine : Engine) (session : Session) (n : Nat) :
    (session.progress engine n).session.outbox.gone = session.outbox.gone := by
  induction n with
  | zero => rfl
  | succ n ih => exact (gone_next _).trans ih

/-! ## The log -/

theorem neither_executing_nor_replying {stage : Stage}
    (h : stage = .reading ∨ ∃ final, stage = .logging final) :
    (∀ request, stage ≠ .executing request) ∧ ∀ final, stage ≠ .replying final := by
  rcases h with rfl | ⟨_, rfl⟩
  · exact ⟨nofun, nofun⟩
  · exact ⟨nofun, nofun⟩

/-- A request is carried out only if it was read, and replies are flushed only behind the log. -/
theorem session_next (h : progress.session.reader.Sound) :
    progress.next.session.reader.Sound ∧
      (∀ request, progress.next.session.stage = .executing request → request.Intact) ∧
      ∀ final, progress.next.session.stage = .replying final →
        progress.session.stage = .logging final := by
  cases hstage : progress.session.stage with
  | reading =>
    rw [session_next_of_reading hstage]
    obtain ⟨hreader, hcases | ⟨request, hexecuting, hintact⟩⟩ := Session.stepReading_cases h hstage
    · obtain ⟨hexecuting, hreplying⟩ := neither_executing_nor_replying hcases
      exact ⟨hreader, fun _ he => absurd he (hexecuting _), fun _ he => absurd he (hreplying _)⟩
    · rw [hexecuting]
      exact ⟨hreader, fun _ he => by cases he; exact hintact, nofun⟩
  | executing request =>
    rw [session_next_of_executing hstage]
    obtain ⟨hreader, _, hcases⟩ := Session.afterOutcome_cases progress.session request.flush
      (progress.engine.execute request).1
    obtain ⟨hexecuting, hreplying⟩ := neither_executing_nor_replying hcases
    rw [hreader]
    exact ⟨h, fun _ he => absurd he (hexecuting _), fun _ he => absurd he (hreplying _)⟩
  | logging final =>
    unfold next Session.step
    rw [hstage]
    dsimp only
    split
    · exact ⟨h, nofun, fun _ he => by cases he; rfl⟩
    · exact ⟨h, nofun, nofun⟩
  | replying final =>
    unfold next Session.step
    rw [hstage]
    cases final with
    | true => exact ⟨h, nofun, nofun⟩
    | false =>
      dsimp only
      split <;> exact ⟨h, nofun, nofun⟩
  | closed | failed =>
    have hnext : progress.next.session = progress.session := by
      unfold next Session.step
      rw [hstage]
    rw [hnext, hstage]
    exact ⟨h, nofun, nofun⟩

/-- A step flushes the stage to the log, or it leaves the log alone and adds what it writes to the
stage. -/
theorem log_next (progress : Progress) :
    (∃ final, progress.session.stage = .logging final ∧
        progress.next.engine.staged = [] ∧ progress.next.written = progress.written ∧
        progress.next.logged = progress.logged ++ progress.engine.logged ∧
        progress.next.unflushed = [] ∧
        ((∃ error, progress.next.session.stage = .failed error) ∨
          progress.engine.logged = progress.engine.staged)) ∨
      (∀ final, progress.session.stage ≠ .logging final) ∧
        progress.next.logged = progress.logged ∧
        progress.next.written = progress.written ++ progress.writing ∧
        progress.next.engine.staged = progress.engine.staged ++ progress.writing ∧
        progress.next.unflushed = progress.unflushed ++ progress.writing ∧
        ((∃ error, progress.session.stage = .failed error) →
          ∃ error, progress.next.session.stage = .failed error) := by
  have hnothing : progress.engine.staged = progress.engine.staged ++ [] := (List.append_nil _).symm
  unfold next logging writing Session.step
  cases hstage : progress.session.stage with
  | reading => exact .inr ⟨nofun, List.append_nil _, rfl, hnothing, rfl, nofun⟩
  | executing request =>
    exact .inr ⟨nofun, List.append_nil _, rfl, Engine.staged_execute _ _, rfl, nofun⟩
  | logging final =>
    obtain ⟨hstaged, hcases⟩ := progress.engine.flush_cases
    refine .inl ⟨final, rfl, ?_, List.append_nil _, rfl, rfl, ?_⟩
    · rw [← hstaged]
      dsimp only
      split <;> rename_i hflush <;> rw [hflush]
    · rcases hcases with ⟨hlogged, _⟩ | ⟨_, _, cause, hfails⟩
      · exact .inr hlogged
      · dsimp only
        split <;> rename_i hflush
        · rw [hflush] at hfails
          cases hfails
        · exact .inl ⟨_, rfl⟩
  | replying final =>
    cases final with
    | true => exact .inr ⟨nofun, List.append_nil _, rfl, hnothing, rfl, nofun⟩
    | false =>
      dsimp only
      split <;> exact .inr ⟨nofun, List.append_nil _, rfl, hnothing, rfl, nofun⟩
  | closed => exact .inr ⟨nofun, List.append_nil _, rfl, hnothing, rfl, nofun⟩
  | failed error => exact .inr ⟨nofun, List.append_nil _, rfl, hnothing, rfl, fun _ => ⟨_, hstage⟩⟩

/-- What is true of every session that begins with reading. -/
structure Sound (progress : Progress) : Prop where
  reader : progress.session.reader.Sound
  intact : ∀ request, progress.session.stage = .executing request → request.Intact
  beginning : progress.logged <+: progress.written
  whole : (∃ error, progress.session.stage = .failed error) ∨
    progress.written = progress.logged ++ progress.engine.staged
  drained : ∀ final, progress.session.stage = .replying final → progress.engine.staged = []
  unflushed : progress.unflushed <:+ progress.engine.staged

theorem sound_next (h : progress.Sound) : progress.next.Sound := by
  obtain ⟨hreader, hintact, hreplying⟩ := session_next h.reader
  rcases progress.log_next with ⟨final, hstage, hstaged, hwritten, hlogged, hunflushed, hcases⟩ |
    ⟨hstage, hlogged, hwritten, hstaged, hunflushed, hfailed⟩
  · -- A flush empties the stage: into the log, or into nothing, and then the session has failed.
    have hwhole : progress.written = progress.logged ++ progress.engine.staged :=
      h.whole.resolve_left fun ⟨_, hfailed⟩ => nomatch hstage.symm.trans hfailed
    have hbeginning : progress.engine.logged <+: progress.engine.staged := by
      rcases progress.engine.flush_cases.2 with ⟨hall, _⟩ | ⟨hnone, _⟩
      · exact hall ▸ List.prefix_refl _
      · exact hnone ▸ List.nil_prefix
    refine ⟨hreader, hintact, ?_, hcases.imp_right fun hall => ?_, fun _ _ => hstaged, ?_⟩
    · rw [hlogged, hwritten, hwhole]
      exact (List.prefix_append_right_inj _).2 hbeginning
    · rw [hlogged, hwritten, hwhole, hstaged, hall, List.append_nil]
    · exact hunflushed ▸ List.nil_suffix
  · refine ⟨hreader, hintact, ?_, ?_, fun final hfinal => ?_, ?_⟩
    · rw [hlogged, hwritten]
      exact h.beginning.trans (List.prefix_append _ _)
    · rcases h.whole with hfails | hwhole
      · exact .inl (hfailed hfails)
      · rw [hlogged, hwritten, hwhole, hstaged, List.append_assoc]
        exact .inr rfl
    · exact absurd (hreplying final hfinal) (hstage final)
    · rw [hunflushed, hstaged]
      exact List.suffix_append_self_iff.2 h.unflushed

theorem sound_progress (engine : Engine) {session : Session} (hreader : session.reader.Sound)
    (hstage : session.stage = .reading) (n : Nat) : (session.progress engine n).Sound := by
  induction n with
  | zero =>
    exact ⟨hreader, fun _ h => absurd (hstage.symm.trans h) nofun, List.nil_prefix, .inr rfl,
      fun _ h => absurd (hstage.symm.trans h) nofun, List.nil_suffix⟩
  | succ n ih => exact sound_next ih

end Progress

end LogStore
