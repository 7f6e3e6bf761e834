import LogStore.Settings
import LogStore.Log.Device
import LogStore.Replay

/-!
# The log

The log is an append-only sequence of requests, each exactly as it was received. Appending marks the
log as unsynced; a sync does something only while it is marked, and takes the mark off when it
succeeds. Under the policy `always` an append syncs at once, and its bytes stay written if that sync
fails.
-/

namespace LogStore

/-- An open log. -/
structure Log where
  /-- The path it was opened under, as it is reported. -/
  path : String
  /-- The device that holds it. -/
  device : Device
  /-- When it is synced. -/
  policy : SyncPolicy
  /-- Whether something was appended and not synced since. -/
  unsynced : Bool := false

/-- What comes of reading a log back. -/
structure Log.Loaded where
  /-- The replay of its requests, up to the end or to the first fault. -/
  replay : Replay
  /-- The failure, if there was a fault. -/
  outcome : Except LogError Unit
  /-- The log, read up to where the replay stopped. -/
  log : Log

namespace Log

/-- Replays what the log holds from its reading position on. -/
def load (log : Log) (vocabulary : Vocabulary) (keyspace : Keyspace) : Loaded :=
  let transcript := log.device.source.transcript
  { replay := transcript.replay vocabulary keyspace
    outcome := transcript.outcome.mapError .replay
    log := { log with device := log.device.readUpTo transcript.source } }

/-- Forces to durable storage what was appended since the last sync. -/
def sync (log : Log) : Except LogError Unit × Log :=
  if log.unsynced then
    match log.device.sync with
    | (.ok (), device) => (.ok (), { log with device, unsynced := false })
    | (.error cause, device) => (.error (.sync cause), { log with device })
  else (.ok (), log)

/-- Appends requests. -/
def append (log : Log) (bytes : Bytes) : Except LogError Unit × Log :=
  match log.device.write bytes with
  | (.error cause, device) => (.error (.write cause), { log with device })
  | (.ok (), device) =>
    let log := { log with device, unsynced := true }
    if log.policy = .always then log.sync else (.ok (), log)

/-- Syncs at each of `ticks` ticks of a clock, up to the first failure. -/
def syncAtTicks (log : Log) : (ticks : Nat) → Except LogError Unit × Log
  | 0 => (.ok (), log)
  | ticks + 1 =>
    match log.sync with
    | (.ok (), log) => log.syncAtTicks ticks
    | (.error e, log) => (.error e, log)

end Log

end LogStore
