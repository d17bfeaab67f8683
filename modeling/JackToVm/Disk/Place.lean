import JackToVm.Disk

/-!
# Places of paths

The place that a path names, found from the components of the path alone. There
are no links on a disk, so a path that leads somewhere leads to this place. Of
several texts that are written one after the other a place keeps the last one.
-/

namespace JackToVm.Path

/-- Where a component leads from a place. -/
def Component.lead (place : Location) : Component → Location
  | .root => []
  | .current => place
  | .parent => place.dropLast
  | .name entry => place ++ [entry]

/-- The place that a path names where relative paths begin at `origin`. -/
def place (origin : Location) (path : Path) : Location :=
  path.components.foldl Component.lead origin

/-- Whether the pieces of a path are what its slashes cut its text into. -/
def IsCut (path : Path) : Prop :=
  ∀ piece ∈ path.head :: path.tail, '/' ∉ piece.toList

/-- Whether a piece of a path names an entry of a directory. -/
def IsEntryName (piece : String) : Prop :=
  componentOfPiece? piece = some (.name piece)

end JackToVm.Path

namespace JackToVm.Disk

/-- A path asks for an entry at a place: what stands before the last piece
leads to a directory, and the last piece can be the name of an entry there. -/
def Offers (disk : Disk) (path : Path) (place : Location) : Prop :=
  ∃ directory name, disk.newPlace path = .ok (.name directory name false) ∧
    name.utf8ByteSize ≤ maxNameLength ∧ place = directory ++ [name]

/-- What is a directory on the first disk is one on the second, too. -/
structure KeepsDirectories (before after : Disk) : Prop where
  workingDirectory_eq : after.workingDirectory = before.workingDirectory
  find?_eq : ∀ place, before.find? place = some .directory →
    after.find? place = some .directory

/-- Some texts are written one after the other, each to a path. -/
inductive Writes : Disk → List (Path × String) → Disk → Prop where
  | nil {disk : Disk} : Writes disk [] disk
  | cons {before between after : Disk} {path : Path} {content : String}
      {others : List (Path × String)} :
      before.writeText path content = .ok between →
      Writes between others after →
      Writes before ((path, content) :: others) after

/-- The texts among some outputs that go to a place, in order. -/
def textsAt (origin : Location) (outputs : List (Path × String))
    (place : Location) : List String :=
  outputs.filterMap fun output =>
    if output.1.place origin = place then some output.2 else none

/-- Each output is read back as the last text among those that go to its
place. -/
def HoldsLast (disk : Disk) (outputs : List (Path × String)) : Prop :=
  ∀ output ∈ outputs, ∃ content,
    (textsAt disk.workingDirectory outputs
      (output.1.place disk.workingDirectory)).getLast? = some content ∧
    disk.readText output.1 = .ok content

/-- The paths of some outputs name different places. -/
def Separates (disk : Disk) (outputs : List (Path × String)) : Prop :=
  (outputs.map (·.1.place disk.workingDirectory)).Nodup

/-- No output is lost: their paths are different, and each of them leads to a
file with its text. -/
structure Keeps (disk : Disk) (outputs : List (Path × String)) : Prop where
  order_ne : outputs.Pairwise fun first second =>
    Path.order first.1 second.1 ≠ .eq
  readText_eq : ∀ output ∈ outputs, disk.readText output.1 = .ok output.2

deriving instance DecidableEq for Except

instance (disk : Disk) (outputs : List (Path × String)) :
    Decidable (disk.Keeps outputs) :=
  decidable_of_iff
    ((outputs.Pairwise fun (first second : Path × String) =>
        Path.order first.1 second.1 ≠ .eq) ∧
      ∀ output ∈ outputs, disk.readText output.1 = .ok output.2)
    ⟨fun both => ⟨both.1, both.2⟩,
      fun keeps => ⟨keeps.order_ne, keeps.readText_eq⟩⟩

end JackToVm.Disk
