import Mathlib.Logic.Function.Basic
import LogStore.Proofs.Request.FlushPoints
import LogStore.Proofs.Session.Progress

/-!
# Sessions side by side

A crowd of clients shares an engine. Their sessions take their steps in any order, and between them
the sockets receive and the log is synced. A session that reads has either settled everything, in
the log and to its client, or it has the next request at hand (`Session.Poised`), so it never waits
with something unsettled: this is what the flush flag of a request is for. The steps of the others
cannot disturb that, since they only add to the log, to the stage and to the writes
(`Crowd.steady_perform`).
-/

namespace LogStore

/-! ## A crowd and its moves -/

/-- The request that the next step carries out as a write that succeeds, if it does. -/
def Progress.write? (progress : Progress) : Option Request :=
  match progress.session.stage with
  | .executing request => if progress.engine.isWrite request then some request else none
  | _ => none

/-- What the log answers in the next step, if it is asked. -/
def Progress.answer? (progress : Progress) : Option (Except LogError Unit) :=
  match progress.session.stage with
  | .logging _ => some progress.engine.flush.1
  | _ => none

/-- Clients that share an engine, and what has come of them. -/
structure Crowd where
  /-- The engine. -/
  engine : Engine
  /-- The session of each client, by its number. -/
  sessions : Nat → Session
  /-- The writes that have succeeded, in order, each with the number of its client. -/
  writes : List (Nat × Request) := []
  /-- What was answered to each client, in order. -/
  exchanges : Nat → List Exchange := fun _ => []
  /-- The answers of the log to flushes and syncs, in order. -/
  answers : List (Except LogError Unit) := []

namespace Crowd

/-- What can happen in a crowd. -/
inductive Move where
  /-- The socket of a client receives something. -/
  | receive (client : Nat) (source : Source)
  /-- The session of a client takes a step. -/
  | step (client : Nat)
  /-- The log is synced in the background. -/
  | sync

/-- Clients who have yet to be heard of, some of which may take no replies. -/
def start (engine : Engine) (gone : Nat → Bool) : Crowd where
  engine
  sessions client := { outbox := { gone := gone client } }

def progress (crowd : Crowd) (client : Nat) : Progress where
  engine := crowd.engine
  session := crowd.sessions client

def perform (crowd : Crowd) : Move → Crowd
  | .receive client source =>
    { crowd with
      sessions := Function.update crowd.sessions client ((crowd.sessions client).deliver source) }
  | .step client =>
    let progress := crowd.progress client
    { engine := progress.next.engine
      sessions := Function.update crowd.sessions client progress.next.session
      writes := crowd.writes ++ progress.write?.toList.map (client, ·)
      exchanges := Function.update crowd.exchanges client
        (crowd.exchanges client ++ progress.exchange?.toList)
      answers := crowd.answers ++ progress.answer?.toList }
  | .sync =>
    { crowd with
      engine := { crowd.engine with log := crowd.engine.log.sync.2 }
      answers := crowd.answers ++ [crowd.engine.log.sync.1] }

def run (crowd : Crowd) (moves : List Move) : Crowd :=
  moves.foldl perform crowd

/-- The log holds each write of the client behind all writes before it, whoever sent them, and
behind the bytes `base`. -/
def AllLogged (crowd : Crowd) (base : Bytes) (client : Nat) : Prop :=
  ∀ before request after, crowd.writes = before ++ (client, request) :: after →
    base ++ before.flatMap (·.2.raw) ++ request.raw <+: crowd.engine.log.device.contents

end Crowd

/-! ## A session on its own -/

/-- The next request is at hand. -/
def Reader.Busy (reader : Reader) : Prop :=
  ∃ request, reader.ahead = some (.ok request)

theorem Reader.flush_or_busy_of_poll {reader next : Reader} {request : Request}
    (h : reader.poll = some (.ok request, next)) : request.flush = true ∨ next.Busy := by
  cases hflush : request.flush with
  | true => exact .inl rfl
  | false =>
    obtain ⟨frame, _, hahead⟩ := ahead_of_flush_eq_false (read_of_poll_eq_request h []) hflush
    exact .inr ⟨_, hahead⟩

/-- Where a session may stand; `settled` is the condition that its writes are in the log. -/
inductive Session.Poised (settled : Prop) (session : Session) : Prop
  | quiet (hstage : session.stage = .reading) (hsettled : settled)
      (hgathered : session.outbox.gathered = [])
  | busy (hstage : session.stage = .reading) (hbusy : session.reader.Busy)
  | executing {request : Request} (hstage : session.stage = .executing request)
      (hbusy : request.flush = true ∨ session.reader.Busy)
  | logging {final : Bool} (hstage : session.stage = .logging final)
  | replying {final : Bool} (hstage : session.stage = .replying final) (hsettled : settled)
  | closed (hstage : session.stage = .closed) (hsettled : settled)
      (hgathered : session.outbox.gathered = [])

namespace Session

variable {session : Session} {settled later : Prop}

theorem Poised.mono (h : session.Poised settled) (himp : settled → later) :
    session.Poised later := by
  cases h with
  | quiet hstage hsettled hgathered => exact .quiet hstage (himp hsettled) hgathered
  | busy hstage hbusy => exact .busy hstage hbusy
  | executing hstage hbusy => exact .executing hstage hbusy
  | logging hstage => exact .logging hstage
  | replying hstage hsettled => exact .replying hstage (himp hsettled)
  | closed hstage hsettled hgathered => exact .closed hstage (himp hsettled) hgathered

theorem Poised.deliver (h : session.Poised settled) (source : Source) :
    (session.deliver source).Poised settled := by
  cases h with
  | quiet hstage hsettled hgathered => exact .quiet hstage hsettled hgathered
  | busy hstage hbusy => exact .busy hstage hbusy
  | executing hstage hbusy => exact .executing hstage hbusy
  | logging hstage => exact .logging hstage
  | replying hstage hsettled => exact .replying hstage hsettled
  | closed hstage hsettled hgathered => exact .closed hstage hsettled hgathered

theorem poised_stepReading (hstage : session.stage = .reading)
    (h : session.reader.Busy ∨ settled ∧ session.outbox.gathered = []) :
    session.stepReading.Poised settled := by
  unfold stepReading
  split
  · rename_i request reader hpoll
    exact .executing rfl (Reader.flush_or_busy_of_poll hpoll)
  · rename_i fault reader _
    obtain ⟨_, _, hnext⟩ := answer_cases { session with reader } fault.reply (.logging true)
    exact .logging (hnext.elim id id)
  · rename_i hpoll
    -- Nothing is at hand, so everything is settled.
    have hidle : ¬ session.reader.Busy := by
      rintro ⟨request, hahead⟩
      cases (Reader.of_poll_eq_none hpoll).1.symm.trans hahead
    obtain ⟨hsettled, hgathered⟩ := h.resolve_left hidle
    split
    · exact .quiet hstage hsettled hgathered
    · exact .quiet hstage hsettled hgathered
    · exact .logging rfl

theorem exists_logging_afterOutcome (session : Session) (outcome : Outcome) :
    ∃ final, (session.afterOutcome true outcome).stage = .logging final := by
  cases outcome with
  | silent => exact ⟨false, rfl⟩
  | reply reply =>
    obtain ⟨_, _, hnext | hnext⟩ := answer_cases session reply (.logging false)
    · exact ⟨false, hnext⟩
    · exact ⟨true, hnext⟩
  | quit =>
    obtain ⟨_, _, hnext⟩ := answer_cases session (.simple "OK") (.logging true)
    exact ⟨true, hnext.elim id id⟩

theorem poised_afterOutcome {flush : Bool} (h : flush = true ∨ session.reader.Busy)
    (outcome : Outcome) : (session.afterOutcome flush outcome).Poised settled := by
  obtain ⟨hreader, _, hstage | ⟨final, hstage⟩⟩ := afterOutcome_cases session flush outcome
  · refine .busy hstage ?_
    rw [hreader]
    refine h.resolve_left ?_
    rintro rfl
    obtain ⟨final, hlogging⟩ := exists_logging_afterOutcome session outcome
    cases hstage.symm.trans hlogging
  · exact .logging hstage

/-- A step settles everything where it flushes the log, and nothing is unsettled but by a write. -/
theorem poised_step {engine : Engine} (hgone : session.outbox.gone = false)
    (h : session.Poised settled)
    (hkept : (∀ request, session.stage ≠ .executing request) → settled → later)
    (hflushed : ∀ final, session.stage = .logging final → engine.flush.1 = .ok () ∧ later) :
    (step engine session).2.Poised later := by
  unfold step
  cases h with
  | quiet hstage hsettled hgathered =>
    rw [hstage] at hkept ⊢
    exact poised_stepReading hstage (.inr ⟨hkept nofun hsettled, hgathered⟩)
  | busy hstage hbusy =>
    rw [hstage]
    exact poised_stepReading hstage (.inl hbusy)
  | executing hstage hbusy =>
    rw [hstage]
    exact poised_afterOutcome hbusy _
  | logging hstage =>
    obtain ⟨hok, hlater⟩ := hflushed _ hstage
    rw [hstage]
    dsimp only
    split
    · exact .replying rfl hlater
    · rename_i hfails
      rw [hfails] at hok
      cases hok
  | @replying final hstage hsettled =>
    rw [hstage] at hkept ⊢
    obtain ⟨box, hflush, _, _, hgathered⟩ := Outbox.exists_flush_eq hgone
    cases final with
    | true =>
      dsimp only
      rw [hflush]
      exact .closed rfl (hkept nofun hsettled) hgathered
    | false =>
      dsimp only
      rw [hflush]
      exact .quiet rfl (hkept nofun hsettled) hgathered
  | closed hstage hsettled hgathered =>
    rw [hstage] at hkept ⊢
    exact .closed hstage (hkept nofun hsettled) hgathered

/-- A session that asks for bytes, or has ended, has settled everything. -/
theorem Poised.settled_of_rests (h : session.Poised settled)
    (hrests : (session.stage = .reading ∧ session.reader.needsBytes = true) ∨
      session.ended = true) : settled ∧ session.outbox.gathered = [] := by
  cases h with
  | quiet _ hsettled hgathered => exact ⟨hsettled, hgathered⟩
  | closed _ hsettled hgathered => exact ⟨hsettled, hgathered⟩
  | busy hstage hbusy =>
    obtain ⟨request, hahead⟩ := hbusy
    rcases hrests with ⟨_, hneeds⟩ | hended
    · rw [Reader.needsBytes, Option.isNone_iff_eq_none] at hneeds
      cases (Reader.of_poll_eq_none hneeds).1.symm.trans hahead
    · rw [ended, hstage] at hended
      cases hended
  | executing hstage | logging hstage | replying hstage =>
    rcases hrests with ⟨hreading, _⟩ | hended
    · cases hreading.symm.trans hstage
    · rw [ended, hstage] at hended
      cases hended

end Session

/-! ## The engine under the steps -/

theorem Session.step_engine (engine : Engine) (session : Session) :
    (step engine session).1 =
      match session.stage with
      | .executing request => (engine.execute request).2
      | .logging _ => engine.flush.2
      | _ => engine := by
  unfold step
  cases session.stage with
  | reading | executing | closed | failed => rfl
  | logging final =>
    dsimp only
    split <;> rename_i hflush <;> rw [hflush]
  | replying final =>
    cases final with
    | true => rfl
    | false =>
      dsimp only
      split <;> rfl

namespace Progress

theorem raw_write? (progress : Progress) :
    progress.write?.toList.flatMap Request.raw = progress.writing := by
  unfold write? writing
  cases progress.session.stage with
  | executing request =>
    dsimp only
    by_cases hwrite : progress.engine.isWrite request
    · rw [if_pos hwrite, if_pos hwrite]
      exact List.append_nil _
    · rw [if_neg hwrite, if_neg hwrite]
      rfl
  | reading | logging | replying | closed | failed => rfl

/-- Unless the log fails, its file with the stage behind it grows by what the step writes; and the
stage is empty behind a flush. -/
theorem ledger_next (progress : Progress) (hkeeps : progress.engine.log.device.keeps = true)
    (hanswer : ∀ answer ∈ progress.answer?, answer = .ok ()) :
    progress.next.engine.log.device.keeps = true ∧
      progress.engine.log.device.contents <+: progress.next.engine.log.device.contents ∧
      progress.next.engine.log.device.contents ++ progress.next.engine.staged =
        progress.engine.log.device.contents ++ progress.engine.staged ++ progress.writing ∧
      ∀ final, progress.session.stage = .logging final → progress.next.engine.staged = [] := by
  have hengine : progress.next.engine = _ := Session.step_engine progress.engine progress.session
  unfold answer? at hanswer
  unfold writing
  rw [hengine]
  cases hstage : progress.session.stage with
  | executing request =>
    dsimp only
    rw [Engine.log_execute, Engine.staged_execute, ← List.append_assoc]
    exact ⟨hkeeps, List.prefix_refl _, rfl, nofun⟩
  | logging final =>
    rw [hstage] at hanswer
    obtain ⟨hstaged, hcases⟩ := progress.engine.flush_cases
    obtain ⟨hsame, hcontents⟩ := progress.engine.contents_flush
    have hlogged : progress.engine.logged = progress.engine.staged := by
      rcases hcases with ⟨hall, _⟩ | ⟨_, _, cause, hfails⟩
      · exact hall
      · cases hfails.symm.trans (hanswer _ rfl)
    dsimp only
    rw [hcontents hkeeps, hstaged, hlogged]
    exact ⟨hsame.trans hkeeps, List.prefix_append _ _, rfl, fun _ _ => rfl⟩
  | reading | replying | closed | failed =>
    exact ⟨hkeeps, List.prefix_refl _, (List.append_nil _).symm, nofun⟩

end Progress

/-! ## The crowd -/

namespace Crowd

variable {crowd next : Crowd} {base : Bytes} {client : Nat}

/-- What is in the log stays there, whatever the others write. -/
theorem AllLogged.of_grown (h : crowd.AllLogged base client) {more : List (Nat × Request)}
    (hwrites : next.writes = crowd.writes ++ more) (hmore : ∀ entry ∈ more, entry.1 ≠ client)
    (hcontents : crowd.engine.log.device.contents <+: next.engine.log.device.contents) :
    next.AllLogged base client := by
  intro before request after hsplit
  rw [hwrites] at hsplit
  rcases List.append_eq_append_iff.1 hsplit with ⟨bs, rfl, hbs⟩ | ⟨bs, hbs, hcons⟩
  · exact absurd rfl (hmore (client, request) (hbs ▸ by simp))
  · cases bs with
    | nil =>
      rw [List.nil_append] at hcons
      exact absurd rfl (hmore (client, request) (hcons ▸ List.mem_cons_self))
    | cons entry bs =>
      cases hcons
      exact (h before request bs hbs).trans hcontents

theorem allLogged_of_staged_eq_nil
    (hledger : crowd.engine.log.device.contents ++ crowd.engine.staged =
      base ++ crowd.writes.flatMap (·.2.raw)) (hstaged : crowd.engine.staged = []) :
    crowd.AllLogged base client := by
  intro before request after hsplit
  rw [hstaged, List.append_nil, hsplit, List.flatMap_append, List.flatMap_cons,
    ← List.append_assoc, ← List.append_assoc] at hledger
  rw [hledger]
  exact List.prefix_append _ _

/-- What is true at every time of a client who is there, as long as the log has not failed. -/
structure Steady (base : Bytes) (client : Nat) (crowd : Crowd) : Prop where
  keeps : crowd.engine.log.device.keeps = true
  ledger : crowd.engine.log.device.contents ++ crowd.engine.staged =
    base ++ crowd.writes.flatMap (·.2.raw)
  there : (crowd.sessions client).outbox.gone = false
  taken : (crowd.sessions client).outbox.taken =
    (crowd.exchanges client).flatMap (·.reply.encode)
  poised : (crowd.sessions client).Poised (crowd.AllLogged base client)

/-- Nothing is amiss with a client when others go on, or the log does. -/
theorem Steady.undisturbed (h : crowd.Steady base client) {more : List (Nat × Request)}
    (hkeeps : next.engine.log.device.keeps = true)
    (hledger : next.engine.log.device.contents ++ next.engine.staged =
      base ++ next.writes.flatMap (·.2.raw))
    (hwrites : next.writes = crowd.writes ++ more) (hmore : ∀ entry ∈ more, entry.1 ≠ client)
    (hcontents : crowd.engine.log.device.contents <+: next.engine.log.device.contents)
    (hsession : next.sessions client = crowd.sessions client)
    (hexchanges : next.exchanges client = crowd.exchanges client) :
    next.Steady base client := by
  refine ⟨hkeeps, hledger, ?_, ?_, ?_⟩
  · rw [hsession]
    exact h.there
  · rw [hsession, hexchanges]
    exact h.taken
  · rw [hsession]
    exact h.poised.mono fun hlogged => hlogged.of_grown hwrites hmore hcontents

theorem steady_receive (h : crowd.Steady base client) (other : Nat) (source : Source) :
    (crowd.perform (.receive other source)).Steady base client := by
  by_cases hclient : client = other
  · subst hclient
    have hsession : (crowd.perform (.receive client source)).sessions client =
        (crowd.sessions client).deliver source := Function.update_self ..
    refine ⟨h.keeps, h.ledger, ?_, ?_, ?_⟩
    · rw [hsession]
      exact h.there
    · rw [hsession]
      exact h.taken
    · rw [hsession]
      exact h.poised.deliver source
  · exact h.undisturbed h.keeps h.ledger (List.append_nil _).symm nofun (List.prefix_refl _)
      (Function.update_of_ne hclient ..) rfl

theorem steady_sync (h : crowd.Steady base client) : (crowd.perform .sync).Steady base client := by
  obtain ⟨hkeeps, hcontents, _⟩ := crowd.engine.log.sync_frame
  have hledger := h.ledger
  rw [← hcontents] at hledger
  exact h.undisturbed (hkeeps.trans h.keeps) hledger (List.append_nil _).symm nofun
    (hcontents ▸ List.prefix_refl _) rfl rfl

/-- A step, of whichever client, keeps the log in step with the writes. -/
theorem ledger_step (h : crowd.Steady base client) (other : Nat)
    (hanswers : ∀ answer ∈ (crowd.progress other).answer?, answer = .ok ()) :
    (crowd.perform (.step other)).engine.log.device.contents ++
        (crowd.perform (.step other)).engine.staged =
      base ++ (crowd.perform (.step other)).writes.flatMap (·.2.raw) := by
  have hwrites : (crowd.perform (.step other)).writes =
      crowd.writes ++ (crowd.progress other).write?.toList.map (other, ·) := rfl
  obtain ⟨_, _, hledger, _⟩ :=
    Progress.ledger_next (crowd.progress other) h.keeps hanswers
  rw [hwrites, List.flatMap_append, List.flatMap_map, ← List.append_assoc, ← h.ledger]
  exact hledger.trans (congrArg _ (Progress.raw_write? _).symm)

theorem poised_own_step (h : crowd.Steady base client)
    (hanswers : ∀ answer ∈ (crowd.progress client).answer?, answer = .ok ()) :
    (crowd.progress client).next.session.Poised
      ((crowd.perform (.step client)).AllLogged base client) := by
  obtain ⟨_, hcontents, _, hstaged⟩ :=
    Progress.ledger_next (crowd.progress client) h.keeps hanswers
  refine Session.poised_step h.there h.poised ?_ ?_
  · intro hstage hlogged
    have hnone : (crowd.progress client).write? = none := by
      unfold Progress.write?
      split
      · rename_i request hexecuting
        exact absurd hexecuting (hstage request)
      · rfl
    have hwrites : (crowd.perform (.step client)).writes =
        crowd.writes ++ (crowd.progress client).write?.toList.map (client, ·) := rfl
    rw [hnone] at hwrites
    exact hlogged.of_grown hwrites nofun hcontents
  · intro final hstage
    have hflush : (crowd.progress client).answer? = some crowd.engine.flush.1 := by
      unfold Progress.answer?
      rw [show (crowd.progress client).session.stage = .logging final from hstage]
      rfl
    refine ⟨hanswers _ hflush, ?_⟩
    exact allLogged_of_staged_eq_nil (ledger_step h client hanswers) (hstaged final hstage)

theorem steady_step (h : crowd.Steady base client) (other : Nat)
    (hanswers : ∀ answer ∈ (crowd.progress other).answer?, answer = .ok ()) :
    (crowd.perform (.step other)).Steady base client := by
  obtain ⟨hkeeps, hcontents, _⟩ :=
    Progress.ledger_next (crowd.progress other) h.keeps hanswers
  have hledger := ledger_step h other hanswers
  by_cases hclient : client = other
  · subst hclient
    have hsession : (crowd.perform (.step client)).sessions client =
        (crowd.progress client).next.session := Function.update_self ..
    have hexchanges : (crowd.perform (.step client)).exchanges client =
        crowd.exchanges client ++ (crowd.progress client).exchange?.toList :=
      Function.update_self ..
    have hopen : (crowd.progress client).session.outbox.gone = false := h.there
    obtain ⟨hthere, htaken⟩ := Progress.taken_next hopen
    refine ⟨hkeeps, hledger, ?_, ?_, ?_⟩
    · rw [hsession]
      exact hthere
    · rw [hsession, htaken, hexchanges, List.flatMap_append]
      exact congrArg (· ++ _) h.taken
    · rw [hsession]
      exact poised_own_step h hanswers
  · have hothers : ∀ entry ∈ (crowd.progress other).write?.toList.map (other, ·),
        entry.1 ≠ client := by
      intro entry hentry
      obtain ⟨request, _, rfl⟩ := List.mem_map.1 hentry
      exact Ne.symm hclient
    exact h.undisturbed hkeeps hledger rfl hothers hcontents (Function.update_of_ne hclient ..)
      (Function.update_of_ne hclient ..)

theorem steady_perform (h : crowd.Steady base client) (move : Move)
    (hanswers : ∀ answer ∈ (crowd.perform move).answers, answer = .ok ()) :
    (crowd.perform move).Steady base client := by
  cases move with
  | receive other source => exact steady_receive h other source
  | step other =>
    refine steady_step h other fun answer hanswer => hanswers answer ?_
    exact List.mem_append_right _ (Option.mem_toList.2 hanswer)
  | sync => exact steady_sync h

theorem answers_perform (crowd : Crowd) (move : Move) :
    crowd.answers <+: (crowd.perform move).answers := by
  cases move with
  | receive other source => exact List.prefix_refl _
  | step other => exact List.prefix_append _ _
  | sync => exact List.prefix_append _ _

theorem answers_run (crowd : Crowd) (moves : List Move) :
    crowd.answers <+: (crowd.run moves).answers := by
  induction moves generalizing crowd with
  | nil => exact List.prefix_refl _
  | cons move moves ih => exact (crowd.answers_perform move).trans (ih _)

theorem steady_run (h : crowd.Steady base client) (moves : List Move)
    (hanswers : ∀ answer ∈ (crowd.run moves).answers, answer = .ok ()) :
    (crowd.run moves).Steady base client := by
  induction moves generalizing crowd with
  | nil => exact h
  | cons move moves ih =>
    have hfirst : ∀ answer ∈ (crowd.perform move).answers, answer = .ok () := by
      intro answer hanswer
      exact hanswers answer ((answers_run _ moves).subset hanswer)
    exact ih (steady_perform h move hfirst) hanswers

theorem steady_start (engine : Engine) (hkeeps : engine.log.device.keeps = true)
    {gone : Nat → Bool} (hthere : gone client = false) :
    (start engine gone).Steady (engine.log.device.contents ++ engine.staged) client where
  keeps := hkeeps
  ledger := (List.append_nil _).symm
  there := hthere
  taken := rfl
  poised := .quiet rfl (fun before _ _ hsplit => by cases before <;> cases hsplit) rfl

/-- **Nothing is held back while a client is waited for.** Any number of clients share an engine
over a file; their sessions take their steps in any order, whatever they receive and in whatever
pieces, and the log answers without an error. Whenever the session of a client who is there asks its
socket for bytes, and when it has ended, the log holds every write of the client that has succeeded,
behind all writes before it, and the client was sent every reply, whole and in order. -/
theorem settled_of_asks (engine : Engine) (hfile : engine.log.device.keeps = true)
    (gone : Nat → Bool) (moves : List Move)
    (hanswers : ∀ answer ∈ ((start engine gone).run moves).answers, answer = .ok ())
    (client : Nat) (hthere : gone client = false) :
    let crowd := (start engine gone).run moves
    let session := crowd.sessions client
    (session.stage = .reading ∧ session.reader.needsBytes = true) ∨ session.ended = true →
      crowd.AllLogged (engine.log.device.contents ++ engine.staged) client ∧
        session.outbox.sent = (crowd.exchanges client).flatMap (·.reply.encode) := by
  intro crowd session hrests
  have hsteady : crowd.Steady _ client :=
    steady_run (steady_start engine hfile hthere) moves hanswers
  obtain ⟨hlogged, hgathered⟩ := hsteady.poised.settled_of_rests hrests
  have htaken : session.outbox.taken = _ := hsteady.taken
  rw [Outbox.taken, hgathered, List.append_nil] at htaken
  exact ⟨hlogged, htaken⟩

/-- One client pipelines a write, a read of it and the beginning of a third request; the steps of
another, who writes in one line and stops, come between the two requests. -/
theorem settled_of_asks_pipeline :
    let engine : Engine :=
      { settings := {}, vocabulary := .standard, keyspace := .empty
        log := { path := "log", device := .file [], policy := .always } }
    let pipeline : Bytes := Utf8.encode
      "*3\r\n$3\r\nset\r\n$1\r\na\r\n$1\r\n1\r\n*2\r\n$3\r\nget\r\n$1\r\na\r\n*1"
    let moves : List Move :=
      [.receive 0 [.data pipeline], .step 0, .step 0, .step 0,
        .receive 1 [.data (Utf8.encode "set b 2\n"), .ended], .step 1, .step 1, .step 1,
        .step 0, .step 1, .step 1, .step 0, .step 0, .sync, .step 0, .step 1, .step 1, .step 1]
    let crowd := (start engine fun _ => false).run moves
    (crowd.AllLogged [] 0 ∧ (crowd.sessions 0).outbox.sent = Utf8.encode "+OK\r\n$1\r\n1\r\n") ∧
      (crowd.AllLogged [] 1 ∧ (crowd.sessions 1).outbox.sent = Utf8.encode "+OK\r\n") ∧
      crowd.writes.map (·.1) = [0, 1] := by
  intro engine pipeline moves crowd
  have hok : crowd.answers.all Except.isOk = true := by decide +kernel
  have hanswers : ∀ answer ∈ crowd.answers, answer = .ok () := by
    intro answer hanswer
    cases answer with
    | ok => rfl
    | error e => exact absurd (List.all_eq_true.1 hok _ hanswer) nofun
  have hasks : (crowd.sessions 0).stage = .reading ∧
      (crowd.sessions 0).reader.needsBytes = true := by decide +kernel
  have hended : (crowd.sessions 1).ended = true := by decide +kernel
  subst crowd
  obtain ⟨hfirst, hsentFirst⟩ := settled_of_asks engine rfl (fun _ => false) moves hanswers 0 rfl
    (.inl hasks)
  obtain ⟨hsecond, hsentSecond⟩ := settled_of_asks engine rfl (fun _ => false) moves hanswers 1 rfl
    (.inr hended)
  refine ⟨⟨hfirst, hsentFirst.trans ?_⟩, ⟨hsecond, hsentSecond.trans ?_⟩, ?_⟩
  · decide +kernel
  · decide +kernel
  · decide +kernel

end Crowd

end LogStore
