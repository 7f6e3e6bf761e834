import LogStore.Session.Run

/-!
# The service

A service lets clients in, each under a name, and keeps their sessions with the one engine. What one
client sends is worked off until its session waits again; sessions that wait do not change. A client
that cannot be let in is dropped and reported, and the service goes on. When the log fails under a
session, the service stops and all sessions with it.
-/

namespace LogStore

/-- An engine with its clients. -/
structure Service where
  /-- What all clients share. -/
  engine : Engine
  /-- The clients that are connected, with their sessions. -/
  clients : List (String × Session) := []
  /-- No two of them have the same name. -/
  distinct : clients.Pairwise (fun a b => a.1 ≠ b.1) := by simp
  /-- The failures that await the next clients who try to connect. -/
  acceptFailures : List SystemError := []
  /-- What there was to report since the last look. -/
  notices : List Notice := []
  /-- The failure that has stopped the service, if one has. -/
  stopped : Option LogError := none

namespace Service

/-- The session of a client, which is let in first if it is new, or `none` if it is dropped. -/
def connect (service : Service) (name : String) : Option Session × Service :=
  match service.clients.lookup name with
  | some session => (some session, service)
  | none =>
    match service.acceptFailures with
    | cause :: causes =>
      (none,
        { service with
          acceptFailures := causes
          notices := service.notices ++ [.acceptFailed cause] })
    | [] => (some {}, service)

/-- Forgets a client. -/
def forget (service : Service) (name : String) : Service :=
  { service with
    clients := service.clients.filter (·.1 != name)
    distinct := service.distinct.filter _ }

/-- Remembers where a client's session has come to. -/
def remember (service : Service) (name : String) (session : Session) : Service :=
  { service with
    clients := (name, session) :: service.clients.filter (·.1 != name)
    distinct := List.pairwise_cons.2
      ⟨fun c hc => Ne.symm (by simpa using (List.mem_filter.1 hc).2), service.distinct.filter _⟩ }

/-- Takes over what a client's session has come to, and stops if the log has failed under it. -/
def settle (service : Service) (name : String) (engine : Engine) (session : Session) : Service :=
  match session.stage with
  | .failed e =>
    { service with
      engine
      clients := []
      distinct := .nil
      stopped := some e
      notices := service.notices ++ [.stopped e] }
  | _ => { service with engine }.remember name session

/-- Gives a client's session what its socket receives. Returns the bytes sent to the client in
answer. A service that has stopped answers nothing. -/
def receive (service : Service) (name : String) (source : Source) : Bytes × Service :=
  match service.stopped with
  | some _ => ([], service)
  | none =>
    match service.connect name with
    | (none, service) => ([], service)
    | (some session, service) =>
      let (engine, next) := Session.run service.engine (session.deliver source)
      (next.outbox.sent.drop session.outbox.sent.length, service.settle name engine next)

/-- Ends a client's side. Returns the bytes that were still sent to it. -/
def hangUp (service : Service) (name : String) : Bytes × Service :=
  match service.clients.lookup name with
  | none => ([], service)
  | some _ =>
    let (reply, service) := service.receive name [.ended]
    (reply, service.forget name)

end Service

end LogStore
