import JackToVm.Path

/-!
# Disks

A tree of directories and files with a working directory, and the operations
that a compilation needs: looking a path up, reading a text, listing a
directory, making directories and writing a file. An operation that fails
leaves the disk as it is, apart from the directories that `makeDirectories`
made before it failed.
-/

namespace JackToVm

inductive DiskError where
  | notFound
  | alreadyExists
  | notADirectory
  | isADirectory
  | longName
  | nulCharacter
  | notText
deriving DecidableEq, Repr

def DiskError.message : DiskError → String
  | .notFound => "No such file or directory (os error 2)"
  | .alreadyExists => "File exists (os error 17)"
  | .notADirectory => "Not a directory (os error 20)"
  | .isADirectory => "Is a directory (os error 21)"
  | .longName => "File name too long (os error 36)"
  | .nulCharacter => "file name contained an unexpected NUL byte"
  | .notText => "stream did not contain valid UTF-8"

inductive FileContent where
  | text (content : String)
  /-- Bytes that are no UTF-8 text. -/
  | binary
deriving DecidableEq, Repr

inductive DiskEntry where
  | directory
  | file (content : FileContent)
deriving DecidableEq, Repr

/-- A place on a disk: the names that lead to it from the root. -/
abbrev Location := List String

/-- A tree of directories and files. -/
structure Disk where
  /-- What stands at each place below the root, each place once. -/
  entries : List (Location × DiskEntry)
  /-- The place where relative paths begin. -/
  workingDirectory : Location
deriving DecidableEq, Repr

namespace Disk

/-! ## Places -/

/-- What stands at a place. The root is a directory. -/
def find? (disk : Disk) (place : Location) : Option DiskEntry :=
  if place = [] then
    some .directory
  else
    (disk.entries.find? (·.1 == place)).map Prod.snd

/-- The disk with `entry` at a place, instead of what stood there. -/
def put (disk : Disk) (place : Location) (entry : DiskEntry) : Disk :=
  if disk.entries.any (·.1 == place) then
    { disk with
      entries := disk.entries.map fun old =>
        if old.1 == place then (place, entry) else old }
  else
    { disk with entries := disk.entries ++ [(place, entry)] }

/-- The names in a directory and what they stand for. -/
def childrenOf (disk : Disk) (directory : Location) :
    List (String × DiskEntry) :=
  disk.entries.filterMap fun (place, entry) =>
    match place.getLast? with
    | some name =>
        if place.dropLast = directory then some (name, entry) else none
    | none => none

/-! ## Following a path -/

/-- Longest name of a directory entry, in bytes. -/
def maxNameLength : Nat := 255

def maxPathLength : Nat := 4095

/-- Follows pieces of a path from a directory on. An empty piece and a single
dot stay there, a double dot goes up; a name must lead to a directory unless
it is the last piece. -/
def follow (disk : Disk) : Location → List String → Except DiskError Location
  | place, [] => .ok place
  | place, piece :: pieces =>
      if Path.isIdle piece then
        disk.follow place pieces
      else if piece = ".." then
        disk.follow place.dropLast pieces
      else if maxNameLength < piece.utf8ByteSize then
        .error .longName
      else
        match disk.find? (place ++ [piece]) with
        | none => .error .notFound
        | some .directory => disk.follow (place ++ [piece]) pieces
        | some (.file _) =>
            if pieces = [] then .ok (place ++ [piece])
            else .error .notADirectory

/-- Where a path begins, and the pieces to follow from there. -/
def origin (disk : Disk) (path : Path) :
    Except DiskError (Location × List String) :=
  if '\x00' ∈ path.text.toList then
    .error .nulCharacter
  else if path = Path.empty then
    .error .notFound
  else if maxPathLength < path.text.utf8ByteSize then
    .error .longName
  else if path.isAbsolute then
    .ok ([], path.tail)
  else
    .ok (disk.workingDirectory, path.head :: path.tail)

def locate (disk : Disk) (path : Path) : Except DiskError Location := do
  let (place, pieces) ← disk.origin path
  disk.follow place pieces

def isDirectory (disk : Disk) (path : Path) : Bool :=
  match disk.locate path with
  | .ok place => disk.find? place == some .directory
  | .error _ => false

def isFile (disk : Disk) (path : Path) : Bool :=
  match disk.locate path with
  | .ok place => (disk.find? place).any (· != .directory)
  | .error _ => false

/-! ## Reading -/

def readText (disk : Disk) (path : Path) : Except DiskError String := do
  match disk.find? (← disk.locate path) with
  | some (.file (.text content)) => .ok content
  | some (.file .binary) => .error .notText
  | some .directory => .error .isADirectory
  | none => .error .notFound

def names (disk : Disk) (path : Path) : Except DiskError (List String) := do
  let place ← disk.locate path
  return (disk.childrenOf place).map Prod.fst

/-! ## Making and writing -/

/-- The place where a path asks for a new entry. -/
inductive NewPlace where
  /-- A name in a directory; `slash` tells that the path goes on with a
  slash. -/
  | name (directory : Location) (name : String) (slash : Bool)
  /-- A place that is a directory already: the root, or behind dots. -/
  | directory
deriving DecidableEq, Repr

/-- The place where a path asks for a new entry; all but the last piece must
lead to a directory. -/
def newPlace (disk : Disk) (path : Path) : Except DiskError NewPlace := do
  let (place, pieces) ← disk.origin path
  let slash := pieces.getLast? == some ""
  match pieces.reverse.dropWhile (· == "") with
  | [] => return .directory
  | last :: before =>
      let directory ← disk.follow place (before.reverse ++ [""])
      if last = "." ∨ last = ".." then
        return .directory
      else
        return .name directory last slash

def makeDirectory (disk : Disk) (path : Path) : Except DiskError Disk := do
  match ← disk.newPlace path with
  | .directory => throw .alreadyExists
  | .name directory name _ =>
      let place := directory ++ [name]
      if maxNameLength < name.utf8ByteSize then
        throw .longName
      else if (disk.find? place).isSome then
        throw .alreadyExists
      else
        return disk.put place .directory

/-- Makes the first of the given paths, each of which stands in the next one;
those further on are made first where they are missing. The empty path stands
for a directory that exists. -/
def makeAncestors (disk : Disk) : List Path → Disk × Except DiskError Unit
  | [] => (disk, .error .notFound)
  | path :: above =>
      if path = Path.empty then
        (disk, .ok ())
      else
        match disk.makeDirectory path with
        | .ok made => (made, .ok ())
        | .error .notFound =>
            match disk.makeAncestors above with
            | (made, .error cause) => (made, .error cause)
            | (made, .ok ()) =>
                match made.makeDirectory path with
                | .ok made => (made, .ok ())
                | .error cause =>
                    (made,
                      if made.isDirectory path then .ok () else .error cause)
        | .error cause =>
            (disk, if disk.isDirectory path then .ok () else .error cause)

def makeDirectories (disk : Disk) (path : Path) :
    Disk × Except DiskError Unit :=
  disk.makeAncestors path.ancestors

/-- Writes a text into a file, which is new or loses its old content. A path
that goes on with a slash asks for a directory, however long the name before
it is. -/
def writeText (disk : Disk) (path : Path) (content : String) :
    Except DiskError Disk := do
  match ← disk.newPlace path with
  | .directory => throw .isADirectory
  | .name directory name slash =>
      let place := directory ++ [name]
      if slash then
        throw .isADirectory
      else if maxNameLength < name.utf8ByteSize then
        throw .longName
      else if disk.find? place = some .directory then
        throw .isADirectory
      else
        return disk.put place (.file (.text content))

end Disk

end JackToVm
