import LogStore.Engine
import LogStore.Session.Outbox

/-!
# Sessions

A session serves one client: it reads a request, carries it out, gathers the reply and goes on. At a
flush point the staged writes go to the log first and the gathered replies to the client after that.
The session ends when the client takes its leave or stops sending, when what it sends is malformed,
or when it no longer takes replies; whatever the reason, the log and the replies are flushed once
more. Only a failure of the log is a failure of the session.

A session goes in small steps, each of which touches the shared engine at most once, so the steps of
several sessions may be taken in any order. Between two steps a session is at a `Stage`.
-/

namespace LogStore

/-- What a session does next. -/
inductive Stage where
  /-- It reads a request. -/
  | reading
  /-- It carries out a request. -/
  | executing (request : Request)
  /-- It flushes the log, for the last time if `final`. -/
  | logging (final : Bool)
  /-- It flushes the replies, for the last time if `final`. -/
  | replying (final : Bool)
  /-- It has ended. -/
  | closed
  /-- The log has failed under it. -/
  | failed (error : LogError)
  deriving DecidableEq, Repr

/-- The state of a session. -/
structure Session where
  /-- The reader of the client's requests. -/
  reader : Reader := {}
  /-- What the socket has received and the reader has not asked for yet. -/
  incoming : Source := []
  /-- The way of the replies. -/
  outbox : Outbox := {}
  /-- What comes next. -/
  stage : Stage := .reading

namespace Session

/-- Whether the session waits for its client: it has to ask the socket for bytes, and none are
there. -/
def waiting (session : Session) : Bool :=
  session.stage = .reading && session.reader.needsBytes && session.incoming.isEmpty

/-- Whether the session has ended. -/
def ended (session : Session) : Bool :=
  match session.stage with
  | .closed | .failed _ => true
  | _ => false

/-- Gathers a reply and goes on to a stage, or to the end if the socket refuses. -/
def answer (session : Session) (reply : Reply) (next : Stage) : Session :=
  match session.outbox.push reply.encode with
  | (true, outbox) => { session with outbox, stage := next }
  | (false, outbox) => { session with outbox, stage := .logging true }

/-- Reads a request, or takes the next delivery of the socket if one is needed and there. The end of
the bytes, clean or inside a request, and a failure to read end the session without a word; what is
malformed is answered first. -/
def stepReading (session : Session) : Session :=
  match session.reader.poll with
  | some (.ok request, reader) => { session with reader, stage := .executing request }
  | some (.error fault, reader) => { session with reader }.answer fault.reply (.logging true)
  | none =>
    match session.incoming with
    | [] => session
    | .data (b :: bytes) :: incoming =>
      { session with reader := session.reader.receive (b :: bytes), incoming }
    | _ :: incoming => { session with incoming, stage := .logging true }

/-- Goes on from a request that was carried out. -/
def afterOutcome (session : Session) (flush : Bool) : Outcome → Session
  | .silent => { session with stage := if flush then .logging false else .reading }
  | .reply reply => session.answer reply (if flush then .logging false else .reading)
  | .quit => session.answer (.simple "OK") (.logging true)

/-- One step. A session that waits or has ended stays as it is. -/
def step (engine : Engine) (session : Session) : Engine × Session :=
  match session.stage with
  | .reading => (engine, session.stepReading)
  | .executing request =>
    let (outcome, engine) := engine.execute request
    (engine, session.afterOutcome request.flush outcome)
  | .logging final =>
    match engine.flush with
    | (.ok (), engine) => (engine, { session with stage := .replying final })
    | (.error e, engine) => (engine, { session with stage := .failed e })
  | .replying false =>
    match session.outbox.flush with
    | (true, outbox) => (engine, { session with outbox, stage := .reading })
    | (false, outbox) => (engine, { session with outbox, stage := .logging true })
  | .replying true =>
    (engine, { session with outbox := session.outbox.flush.2, stage := .closed })
  | .closed | .failed _ => (engine, session)

end Session

end LogStore
