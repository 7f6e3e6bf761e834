import LogStore.CommandLine
import LogStore.Startup
import Std.Async.DNS
import Std.Async.TCP
import Std.Sync.Mutex

/-!
# The program

Reads the command line, opens the log and awaits clients. Each client is served by a thread of its
own, which takes the steps of its session one by one and holds the lock on the engine for each of
them. Before a step that flushes the log the staged bytes are written to the file, and the step is
taken on a device that answers as the file did. A write leaves the program at once; when it gets to
durable storage is up to the operating system.
-/

namespace LogStore.Program

/-- The number of a failure. The network reports the negated number, in 32 bits. -/
def errorNumber (code : UInt32) : Nat :=
  if code < 0x80000000 then code.toNat else (0 - code).toNat

/-- A failure as the operating system reports it. Where it is not known, its words are those of the
runtime, which do not begin with a capital. -/
def describe (details : String) (code : UInt32) : SystemError :=
  let number := errorNumber code
  (SystemError.known.find? (·.code == number)).getD ⟨details.capitalize, number⟩

/-- A failure of the runtime. -/
def systemError : IO.Error → SystemError
  | .alreadyExists _ code details | .otherError code details | .resourceBusy code details
  | .resourceVanished code details | .unsupportedOperation code details
  | .hardwareFault code details | .unsatisfiedConstraints code details
  | .illegalOperation code details | .protocolError code details | .timeExpired code details
  | .interrupted _ code details | .noFileOrDirectory _ code details
  | .invalidArgument _ code details | .permissionDenied _ code details
  | .resourceExhausted _ code details | .inappropriateType _ code details
  | .noSuchThing _ code details => describe details code
  | .unexpectedEof => describe "unexpected end of file" 0
  | .userError details => describe details 0

/-- The outcome of an action on a device. -/
def attempt {α : Type} (action : IO α) : IO (Except SystemError α) := do
  try
    return .ok (← action)
  catch e =>
    return .error (systemError e)

/-- What the threads of a running program share. -/
structure Shared where
  /-- The engine. -/
  engine : Engine
  /-- The file of the log, opened for appending. -/
  file : IO.FS.Handle

/-- Shows a notice. -/
def report (settings : Settings) (notice : Notice) : IO Unit := do
  if Filter.shows settings.logLevel notice then
    IO.println notice.line
    (← IO.getStdout).flush

/-- Reads a file to its end, or to the first piece with which it can no longer be a log; `pieces`
are those read before, latest first. -/
partial def readPieces (file : IO.FS.Handle) (intake : Intake) (pieces : List Bytes) :
    IO Bytes := do
  let intake := intake.makeRoom
  let piece := (← file.read intake.free.toUSize).data.toList
  if piece.isEmpty then return pieces.reverse.flatten
  match intake.accept piece with
  | some next => readPieces file next (piece :: pieces)
  | none => return (piece :: pieces).reverse.flatten

/-- Opens the file of the log, which is created if there is none, and reads what it holds. The
device starts with these bytes to be read, or with the failure to read them, and does not keep what
is appended. -/
def openFile (path : String) : IO (Except SystemError (Device × IO.FS.Handle)) :=
  attempt do
    let file ← IO.FS.Handle.mk path .append
    let contents ← attempt do readPieces (← IO.FS.Handle.mk path .read) {} []
    let readable : Device.Readable :=
      match contents with
      | .ok bytes => .bytes bytes
      | .error cause => .failure cause
    return ({ Device.file [] with readable, keeps := false }, file)

/-- Writes the staged bytes to the file, and lets the device of the log answer as the file did. -/
def writeStaged (shared : Shared) : IO Engine := do
  let staged := shared.engine.staged
  if staged.isEmpty then return shared.engine
  let outcome ← attempt do
    shared.file.write ⟨staged.toArray⟩
    shared.file.flush
  let failure :=
    match outcome with
    | .ok () => none
    | .error cause => some cause
  let log := shared.engine.log
  return { shared.engine with
    log := { log with device := { log.device with writeFailure := fun _ => failure } } }

/-- Takes one step of a session. -/
def stepShared (shared : Std.Mutex Shared) (session : Session) : IO Session :=
  shared.atomically do
    let state ← get
    let engine ←
      match session.stage with
      | .logging _ => writeStaged state
      | _ => pure state.engine
    let (engine, session) := session.step engine
    set { state with engine }
    return session

/-- Sends to a client what its session has given to the socket. A client that takes nothing more is
gone. -/
def send (socket : Std.Async.TCP.Socket.Client) (session : Session) : IO Session := do
  let bytes := session.outbox.sent
  if bytes.isEmpty then return session
  match ← attempt (socket.send ⟨bytes.toArray⟩).block with
  | .ok () => return { session with outbox := { session.outbox with sent := [] } }
  | .error _ =>
    return { session with
      outbox := { sent := [], gone := true }
      stage := if session.ended then session.stage else .logging true }

/-- Waits for what a client sends next. -/
def receive (socket : Std.Async.TCP.Socket.Client) : IO Delivery := do
  match ← attempt (socket.recv? Source.chunkSize.toUInt64).block with
  | .ok (some bytes) => return .data bytes.data.toList
  | .ok none => return .ended
  | .error cause => return .failure cause.message

/-- Serves a client to the end of its session. A failure of the log is passed on. -/
partial def serveClient (shared : Std.Mutex Shared) (stopped : IO.Promise LogError)
    (socket : Std.Async.TCP.Socket.Client) (session : Session) : IO Unit := do
  match session.stage with
  | .closed => discard <| attempt socket.shutdown.block
  | .failed e => stopped.resolve e
  | _ =>
    if session.waiting then
      serveClient shared stopped socket (session.deliver [← receive socket])
    else
      serveClient shared stopped socket (← send socket (← stepShared shared session))

/-- Lets clients in, one after the other. -/
partial def acceptClients (settings : Settings) (shared : Std.Mutex Shared)
    (stopped : IO.Promise LogError) (listener : Std.Async.TCP.Socket.Server) : IO Unit := do
  match ← attempt listener.accept.block with
  | .ok socket =>
    discard <| IO.asTask (serveClient shared stopped socket {}) Task.Priority.dedicated
  | .error cause => report settings (.acceptFailed cause)
  acceptClients settings shared stopped listener

/-- Syncs the log in the background. -/
partial def syncPeriodically (shared : Std.Mutex Shared) (stopped : IO.Promise LogError) :
    IO Unit := do
  IO.sleep syncIntervalMs.toUInt32
  let result ← shared.atomically do
    let state ← get
    let (result, log) := state.engine.log.sync
    set { state with engine := { state.engine with log } }
    return result
  match result with
  | .ok () => syncPeriodically shared stopped
  | .error e => stopped.resolve e

/-- The short number with a given value, as the network knows it. -/
def shortNumber (number : Nat) : Std.Net.IPv4Addr :=
  let byte (position : Nat) : UInt8 := (number >>> (8 * position)).toUInt8
  .ofParts (byte 3) (byte 2) (byte 1) (byte 0)

/-- The long number of the given groups, as the network knows it. -/
def longNumber (groups : List Nat) : Std.Net.IPv6Addr :=
  let group (position : Nat) : UInt16 := (groups.getD position 0).toUInt16
  .ofParts (group 0) (group 1) (group 2) (group 3) (group 4) (group 5) (group 6) (group 7)

/-- An address as the network knows it, or the report of the failure to find its host. -/
def resolve (address : Address) : IO (Except String Std.Net.SocketAddress) := do
  let port := address.port.toUInt16
  match Host.ofText address.host with
  | .short number => return .ok (.v4 ⟨shortNumber number, port⟩)
  | .long groups => return .ok (.v6 ⟨longNumber groups, port⟩)
  | .name name =>
    match ← attempt (Std.Async.DNS.getAddrInfo name "").block with
    | .error _ => return .error (Network.lookupFailure name)
    | .ok found =>
      match found.toList with
      | .v4 ip :: _ => return .ok (.v4 ⟨ip, port⟩)
      | .v6 ip :: _ => return .ok (.v6 ⟨ip, port⟩)
      | [] => return .error (Network.lookupFailure name)

/-- Awaits clients at an address. -/
def listen (address : Address) : IO (Except String Std.Async.TCP.Socket.Server) := do
  match ← resolve address with
  | .error report => return .error report
  | .ok socketAddress =>
    let listening ← attempt do
      let listener ← Std.Async.TCP.Socket.Server.mk
      listener.bind socketAddress
      listener.listen 1024
      return listener
    return listening.mapError SystemError.message

/-- Serves clients until the log fails. -/
def serve (settings : Settings) (engine : Engine) (file : IO.FS.Handle)
    (listener : Std.Async.TCP.Socket.Server) : IO LogError := do
  let shared ← Std.Mutex.new { engine, file : Shared }
  let stopped ← IO.Promise.new
  discard <| IO.asTask (acceptClients settings shared stopped listener) Task.Priority.dedicated
  if settings.syncPolicy = .everySecond then
    discard <| IO.asTask (syncPeriodically shared stopped) Task.Priority.dedicated
  let some e ← IO.wait stopped.result? | throw (.userError "the service was dropped")
  report settings (.stopped e)
  return e

/-- Starts a service and keeps it up. Returns only with a failure. -/
def start (settings : Settings) : IO StartError := do
  let opened ← openFile (Utf8.decodeLossy settings.logPath)
  let (result, notices) := Engine.start settings .standard (opened.map Prod.fst)
  notices.forM (report settings)
  match result, opened, Address.parse settings.address with
  | .error e, _, _ => return .log e
  | .ok _, .error cause, _ => return .log (.opening (Utf8.decodeLossy settings.logPath) cause)
  | .ok _, _, .error e => return .bind settings.address e.message
  | .ok engine, .ok (_, file), .ok address =>
    match ← listen address with
    | .error cause => return .bind settings.address cause
    | .ok listener =>
      report settings (.listening settings.address)
      return .log (← serve settings engine file listener)

end LogStore.Program

/-- Runs the program. The exit code is 2 for a command line that is not understood and 1 for a
service that did not start or has stopped. -/
def main (arguments : List String) : IO UInt32 := do
  match LogStore.CommandLine.parse (arguments.map LogStore.Utf8.encode) with
  | .error e =>
    IO.eprintln e.message
    return 2
  | .ok (.ask question) =>
    IO.println question.answer
    return 0
  | .ok (.run settings) =>
    (LogStore.Filter.complaints settings.logLevel).forM IO.eprintln
    let e ← LogStore.Program.start settings
    IO.eprint e.report
    return 1
