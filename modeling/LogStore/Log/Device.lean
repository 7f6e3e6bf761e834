import LogStore.Log.Failure
import LogStore.Request.Intake

/-!
# Devices

What the log is kept on. A device is known by its answers: the bytes it still has to read, whether
it takes the next write, and whether it can force what it took to durable storage. A write either
takes all its bytes or fails and takes none; failures are given by the number of the attempt, so a
device may fail at any time and recover. A file has one position for reading, and a write moves it
to the end.
-/

namespace LogStore

/-- What reading a device brings. -/
inductive Device.Readable where
  /-- These bytes, and then the end. -/
  | bytes (bytes : Bytes)
  /-- Zeros without end. -/
  | zeros
  /-- A failure. -/
  | failure (cause : SystemError)
  deriving DecidableEq, Repr

/-- A device and its use so far. -/
structure Device where
  /-- The bytes it holds. -/
  contents : Bytes
  /-- What reading it brings from here on. -/
  readable : Device.Readable
  /-- Whether bytes that it takes are added to its contents. -/
  keeps : Bool := true
  /-- The failure of the write with a given number, if it fails. -/
  writeFailure : Nat → Option SystemError := fun _ => none
  /-- The failure of the sync with a given number, if it fails. -/
  syncFailure : Nat → Option SystemError := fun _ => none
  /-- The number of writes that were attempted. -/
  writes : Nat := 0
  /-- The number of syncs that were attempted. -/
  syncs : Nat := 0
  /-- The number of syncs that succeeded. -/
  synced : Nat := 0

namespace Device

/-- A file with the given contents, opened for reading and appending. -/
def file (contents : Bytes) : Device where
  contents
  readable := .bytes contents

/-- A file that was opened for reading only. -/
def readOnlyFile (contents : Bytes) : Device where
  contents
  readable := .bytes contents
  writeFailure _ := some .badDescriptor

/-- A file that was opened for appending only. -/
def writeOnlyFile (contents : Bytes) : Device where
  contents
  readable := .failure .badDescriptor

/-- The device that is always empty: it takes everything and keeps nothing. -/
def null : Device where
  contents := []
  readable := .bytes []
  keeps := false
  syncFailure _ := some .invalidArgument

/-- The device that is always full. -/
def full : Device where
  contents := []
  readable := .zeros
  keeps := false
  writeFailure _ := some .noSpace
  syncFailure _ := some .invalidArgument

/-- The device that takes everything, keeps nothing and gives zeros. -/
def zero : Device where
  contents := []
  readable := .zeros
  keeps := false
  syncFailure _ := some .invalidArgument

/-- The device at a path that is known to be no file. -/
def special? (path : String) : Option Device :=
  match path with
  | "/dev/null" => some null
  | "/dev/zero" => some zero
  | "/dev/full" => some full
  | _ => none

/-- Answers to reading that never hold a line feed or the beginning of a multibulk request, as many
as a reader takes before it gives up on the line. -/
def endlessZeros : Source :=
  List.replicate (maxLineLength / Source.chunkSize + 1) (.data (List.replicate Source.chunkSize 0))

/-- The device as a source of bytes. -/
def source (device : Device) : Source :=
  match device.readable with
  | .bytes bytes => Source.ofReady bytes
  | .zeros => endlessZeros
  | .failure cause => [.failure cause.message]

/-- The device after it was read, when `rest` of its source is left. -/
def readUpTo (device : Device) (rest : Source) : Device :=
  match device.readable with
  | .bytes _ => { device with readable := .bytes rest.bytes }
  | .zeros | .failure _ => device

/-- Writes bytes. Writing nothing does not reach the device. -/
def write (device : Device) (bytes : Bytes) : Except SystemError Unit × Device :=
  if bytes = [] then (.ok (), device)
  else
    match device.writeFailure device.writes with
    | some cause => (.error cause, { device with writes := device.writes + 1 })
    | none =>
      (.ok (),
        { device with
          writes := device.writes + 1
          contents := if device.keeps then device.contents ++ bytes else device.contents
          readable :=
            match device.readable with
            | .bytes _ => .bytes []
            | other => other })

/-- Forces what the device has taken to durable storage. -/
def sync (device : Device) : Except SystemError Unit × Device :=
  match device.syncFailure device.syncs with
  | some cause => (.error cause, { device with syncs := device.syncs + 1 })
  | none => (.ok (), { device with syncs := device.syncs + 1, synced := device.synced + 1 })

end Device

end LogStore
