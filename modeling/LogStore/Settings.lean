import LogStore.Text.Utf8

/-!
# Settings

What can be chosen when the service is started, and what is chosen where nothing is said.
-/

namespace LogStore

/-- When the log is forced to durable storage. -/
inductive SyncPolicy where
  /-- Whenever the operating system sees fit. -/
  | no
  /-- Once in a second, in the background. -/
  | everySecond
  /-- After each write. -/
  | always
  deriving DecidableEq, Repr

namespace SyncPolicy

/-- The policies, from the least to the most careful. -/
def all : List SyncPolicy :=
  [.no, .everySecond, .always]

/-- The word for a policy on the command line. -/
def word : SyncPolicy → String
  | .no => "no"
  | .everySecond => "everysec"
  | .always => "always"

/-- The policy of a word. -/
def ofWord? (word : Bytes) : Option SyncPolicy :=
  all.find? (Utf8.encode ·.word == word)

end SyncPolicy

/-- The time between two syncs in the background, in milliseconds. -/
def syncIntervalMs : Nat := 1000

/-- The choices for a service. -/
structure Settings where
  /-- The address at which clients are awaited. -/
  address : String := "127.0.0.1:6379"
  /-- The path of the log; it may be any bytes. -/
  logPath : Bytes := Utf8.encode "appendonly.aof"
  /-- When the log is synced. -/
  syncPolicy : SyncPolicy := .everySecond
  /-- The filter that says which notices are shown. -/
  logLevel : String := "info"
  deriving DecidableEq, Repr

end LogStore
