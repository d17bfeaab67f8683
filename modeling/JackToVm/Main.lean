import JackToVm.Style.Environment
import JackToVm.Application
import JackToVm.Clock
import Std.Time.DateTime.Timestamp

/-!
# The program

The compiler as a program on a machine. It takes a picture of what its
arguments name on the disk, runs the application on that picture, carries out
the changes to it and shows the notices.
-/

namespace JackToVm.Machine

/-! ## A picture of the disk -/

/-- The text by which the machine knows a place. -/
def textOf (place : Location) : String :=
  "/" ++ "/".intercalate place

/-- The places that the pieces of a path pass from a directory on. -/
def placesAlong (place : Location) : List String → List Location
  | [] => [place]
  | piece :: pieces =>
      if Path.isIdle piece then
        placesAlong place pieces
      else if piece = ".." then
        place :: placesAlong place.dropLast pieces
      else
        place :: placesAlong (place ++ [piece]) pieces

/-- What stands at a place, if anything does. Of files, only sources are read;
what other files contain plays no part in a build. -/
def entryAt? (place : Location) : IO (Option DiskEntry) := do
  let path := (← IO.currentDir) / textOf place
  if ← path.isDir then
    return some .directory
  else if ← path.pathExists then
    if path.extension = some sourceExtension then
      match String.fromUTF8? (← IO.FS.readBinFile path) with
      | some content => return some (.file (.text content))
      | none => return some (.file .binary)
    else
      return some (.file .binary)
  else
    return none

def depict (disk : Disk) (place : Location) : IO Disk := do
  match ← entryAt? place with
  | some entry => return disk.put place entry
  | none => return disk

def depictDirectory (disk : Disk) (place : Location) : IO Disk := do
  let path := (← IO.currentDir) / textOf place
  if ← path.isDir then
    (← path.readDir).foldlM (fun disk entry =>
      depict disk (place ++ [entry.fileName])) disk
  else
    return disk

/-- A picture of what the arguments name: the places on the way, and the
contents of the last two of them that are directories. -/
def depictAll (arguments : List String) : IO Disk := do
  let workingDirectory :=
    ((← IO.currentDir).toString.splitOn "/").filter (· != "")
  let mut disk : Disk := ⟨[], workingDirectory⟩
  for argument in "." :: arguments do
    if let .ok (place, pieces) := disk.origin (Path.ofText argument) then
      for place in placesAlong [] (place ++ pieces) do
        disk ← depict disk place
      for place in (placesAlong place pieces).reverse.take 2 do
        disk ← depictDirectory disk place
  return disk

/-- Carries out on the machine what sets a disk apart from its picture:
directories are made and texts are written. -/
def carryOut (picture disk : Disk) : IO Unit :=
  disk.entries.forM fun (place, entry) => do
    if picture.find? place ≠ some entry then
      match entry with
      | .directory => IO.FS.createDir (textOf place)
      | .file (.text content) => IO.FS.writeFile (textOf place) content
      | .file .binary => return ()

/-! ## Showing notices -/

def currentPalette : IO Palette := do
  let values ← Environment.variableNames.mapM fun name => do
    return (name, ← IO.getEnv name)
  let terminal ← (← IO.getStdout).isTty
  return Palette.ofEnvironment (fun name => (values.lookup name).join)
    terminal

def currentStamp : IO Stamp := do
  let now ← Std.Time.Timestamp.now
  return ⟨Clock.timeOfDay now.toSecondsSinceUnixEpoch.toInt.toNat,
    Application.name⟩

def tell (palette : Palette) (notice : Notice) : IO Unit := do
  let stream ← if notice.isFailure then IO.getStderr else IO.getStdout
  stream.putStrLn (notice.render palette (← currentStamp))

end JackToVm.Machine

def main (arguments : List String) : IO UInt32 := do
  let picture ← JackToVm.Machine.depictAll arguments
  let outcome := JackToVm.Application.run arguments picture
  JackToVm.Machine.carryOut picture outcome.disk
  let palette ← JackToVm.Machine.currentPalette
  outcome.notices.forM (JackToVm.Machine.tell palette)
  return outcome.exitCode.toUInt32
