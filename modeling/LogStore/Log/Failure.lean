import LogStore.Request.Reader

/-!
# Failures of the log

The log is kept on a device that belongs to the operating system, and each use of the device may
fail. A store without its log is no store: all these failures are fatal to it.
-/

namespace LogStore

/-- A failure that the operating system reports. -/
structure SystemError where
  /-- What has happened, in words. -/
  description : String
  /-- The number of the error. -/
  code : Nat
  deriving DecidableEq, Repr, Inhabited

namespace SystemError

/-- The text that reports the failure. -/
def message (e : SystemError) : String :=
  e.description ++ " (os error " ++ toString e.code ++ ")"

/-- Nothing has the name. -/
def noSuchFile : SystemError := ⟨"No such file or directory", 2⟩

/-- The file was not opened for this use. -/
def badDescriptor : SystemError := ⟨"Bad file descriptor", 9⟩

/-- A part of the path that should be a directory is none. -/
def notDirectory : SystemError := ⟨"Not a directory", 20⟩

/-- A directory stands where a file was expected. -/
def isDirectory : SystemError := ⟨"Is a directory", 21⟩

/-- The device knows no such request. -/
def invalidArgument : SystemError := ⟨"Invalid argument", 22⟩

/-- The device is full. -/
def noSpace : SystemError := ⟨"No space left on device", 28⟩

/-- A name, or a path, is longer than the system takes. -/
def nameTooLong : SystemError := ⟨"File name too long", 36⟩

/-- The address belongs to no part of the machine. -/
def addressUnavailable : SystemError := ⟨"Cannot assign requested address", 99⟩

/-- The client went away before it could be let in. -/
def connectionAborted : SystemError := ⟨"Software caused connection abort", 103⟩

/-- The failures that are known by their numbers. -/
def known : List SystemError :=
  [noSuchFile, badDescriptor, notDirectory, isDirectory, invalidArgument, noSpace, nameTooLong,
    addressUnavailable, connectionAborted]

end SystemError

/-- How the log can fail. -/
inductive LogError where
  /-- It could not be opened. -/
  | opening (path : String) (cause : SystemError)
  /-- Its contents could not be read back. -/
  | replay (cause : ReadFailure)
  /-- Requests could not be appended. -/
  | write (cause : SystemError)
  /-- What was appended could not be forced to durable storage. -/
  | sync (cause : SystemError)
  deriving DecidableEq, Repr, Inhabited

namespace LogError

/-- The text that reports the failure. -/
def message : LogError → String
  | .opening path cause => "failed to open append only file " ++ path ++ ": " ++ cause.message
  | .replay cause => "failed to replay append only file: " ++ cause.message
  | .write cause => "failed to write append only file: " ++ cause.message
  | .sync cause => "failed to sync append only file: " ++ cause.message

/-- The report of the failure behind this one, where one is kept. -/
def cause? : LogError → Option String
  | .opening _ cause => some cause.message
  | .replay cause => some cause.message
  | .write _ | .sync _ => none

end LogError

end LogStore
