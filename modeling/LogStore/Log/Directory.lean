import LogStore.Log.Device

/-!
# A directory for logs

A log is opened by its path. Here a directory holds files by their names, and `Directory.openLog`
says what opening a path gives: a file that is there, a new and empty one, or the failure that the
operating system reports. A relative path leads on from the directory. Outside of it there are the
directories that every system has, and nothing in them but the special devices.
-/

namespace LogStore

/-- A directory that holds files only. -/
structure Directory where
  /-- Its path. -/
  path : Bytes
  /-- The files by name, with their contents. -/
  files : List (Bytes × Bytes) := []
  deriving DecidableEq, Repr

namespace Directory

/-- The byte between the names along a path. -/
def slash : Byte := 47

/-- The name of the place where one is. -/
def here : Bytes := [46]

/-- The name of the place above. -/
def above : Bytes := [46, 46]

/-- The number of bytes that a name may have. -/
def maxNameLength : Nat := 255

/-- The number of bytes that a path may have. -/
def maxPathLength : Nat := 4095

/-- The names along a path. -/
def names (path : Bytes) : List Bytes :=
  (path.splitOn slash).filter (· != [])

/-- The names of the directories that every system has. -/
def systemNames : List Bytes :=
  ["bin", "boot", "dev", "etc", "home", "lib", "media", "mnt", "opt", "proc", "root", "run", "sbin",
    "srv", "sys", "tmp", "usr", "var"].map Utf8.encode

/-- Opens the file of a name, where the path ends. A path that ends in a slash can only mean a
directory. -/
def openFile (files : List (Bytes × Bytes)) (name : Bytes) (endsInSlash : Bool) :
    Except SystemError Device :=
  if endsInSlash ∨ name = here ∨ name = above then .error .isDirectory
  else if maxNameLength < name.length then .error .nameTooLong
  else .ok (.file ((files.lookup name).getD []))

/-- Opens a path that leads on from a place outside of the directory, by the names along it. -/
def openOutside (endsInSlash : Bool) : List Bytes → Except SystemError Device
  | [] => .error .isDirectory
  | [name] => openFile [] name endsInSlash
  | _ => .error .noSuchFile

/-- Opens a path that leads on from the top of the system, above which there is nothing. -/
def openFromTop (endsInSlash : Bool) : List Bytes → Except SystemError Device
  | [] => .error .isDirectory
  | name :: rest =>
    if name = here ∨ name = above then openFromTop endsInSlash rest
    else if name ∈ systemNames then openOutside endsInSlash rest
    else openOutside endsInSlash (name :: rest)

/-- Opens a path that leads on from the directory. -/
def openBelow (directory : Directory) (endsInSlash : Bool) :
    List Bytes → Except SystemError Device
  | [] => .error .isDirectory
  | [name] => openFile directory.files name endsInSlash
  | name :: rest =>
    if name = here then directory.openBelow endsInSlash rest
    else if name = above then openOutside endsInSlash rest
    else if maxNameLength < name.length then .error .nameTooLong
    else if (directory.files.lookup name).isSome then .error .notDirectory
    else .error .noSuchFile

/-- Opens a path for reading and appending, and creates the file if there is none. -/
def openLog (directory : Directory) (path : Bytes) : Except SystemError Device :=
  let endsInSlash := path.getLast? == some slash
  if maxPathLength < path.length then .error .nameTooLong
  else if let some device := Device.special? (Utf8.decodeLossy path) then .ok device
  else if directory.path.isPrefixOf path then
    let rest := path.drop directory.path.length
    if rest.head?.all (· == slash) then directory.openBelow endsInSlash (names rest)
    else openOutside endsInSlash (names rest)
  else if path.head? == some slash then openFromTop endsInSlash (names path)
  else directory.openBelow endsInSlash (names path)

end Directory

end LogStore
