import JackToVm.Build.Source
import JackToVm.Disk.Place
import Mathlib.Data.List.Forall2

/-!
# What a list of paths selects

The source files that a list of paths stands for: those that it lists and those
with the right extension directly in a directory that it lists. A path that is
longer than a disk follows leads nowhere, however its file is called elsewhere.
-/

namespace JackToVm

/-- Whether a path is not longer than a disk follows. -/
def Path.IsShort (path : Path) : Prop :=
  path.text.utf8ByteSize ≤ Disk.maxPathLength

instance : DecidablePred Path.IsShort :=
  fun path => inferInstanceAs (Decidable (path.text.utf8ByteSize ≤ _))

/-- Whether a text ends neither with a slash nor with a slash and a dot. With
such an end a path asks for a directory, but its components do not tell. -/
def Path.EndsPlainly (text : String) : Prop :=
  ¬ ['/'] <:+ text.toList ∧ ¬ ['/', '.'] <:+ text.toList

instance : DecidablePred Path.EndsPlainly :=
  fun text => inferInstanceAs
    (Decidable (¬ ['/'] <:+ text.toList ∧ ¬ ['/', '.'] <:+ text.toList))

namespace Disk

/-- Whether a text can be the name of an entry of a directory. -/
def IsFileName (name : String) : Prop :=
  Path.IsEntryName name ∧ '/' ∉ name.toList ∧ '\x00' ∉ name.toList ∧
    name.utf8ByteSize ≤ maxNameLength

instance : DecidablePred IsFileName :=
  fun name => inferInstanceAs (Decidable (Path.componentOfPiece? name = _ ∧ _))

/-- Whether all names on a disk can be names of entries. -/
def HasFileNames (disk : Disk) : Prop :=
  ∀ entry ∈ disk.entries, ∀ name ∈ entry.1, IsFileName name

instance (disk : Disk) : Decidable disk.HasFileNames :=
  inferInstanceAs (Decidable (∀ entry ∈ disk.entries, ∀ name ∈ entry.1, _))

end Disk

namespace SourceFile

/-! ## Selected paths -/

section Selected

variable (disk : Disk) (paths : List String) (extension : String)

/-- The list holds a path that is not a directory. -/
def IsListed (path : Path) : Prop :=
  ∃ text ∈ paths, path = Path.ofText text ∧ disk.isDirectory path = false

/-- A path names a file with the extension that lies directly in a
directory. -/
def LiesIn (directory path : Path) : Prop :=
  ∃ name content, path = directory.join (Path.ofText name) ∧
    disk.find? (directory.place disk.workingDirectory ++ [name]) =
      some (.file content) ∧
    (Path.splitName name).2 = some extension

/-- A file lies directly in a directory that the list holds, and the path that
leads to it from there is not too long. -/
def IsFound (path : Path) : Prop :=
  path.IsShort ∧ ∃ text ∈ paths,
    disk.isDirectory (Path.ofText text) = true ∧
      LiesIn disk extension (Path.ofText text) path

def IsSelected (path : Path) : Prop :=
  IsListed disk paths path ∨ IsFound disk paths extension path

/-- It does not matter by which of two equal paths a listed file is read: each
of them ends plainly, and neither is too long if the other one is not. -/
structure IsUniform : Prop where
  endsPlainly : ∀ text ∈ paths, disk.isDirectory (Path.ofText text) = false →
    Path.EndsPlainly text
  isShort_iff : ∀ first second, IsListed disk paths first →
    IsListed disk paths second → Path.order first second = .eq →
      (first.IsShort ↔ second.IsShort)

/-- Another list holds the same paths, in any order and any number of times,
and perhaps also files that are found in a directory, under equal paths. -/
structure ListsAgain (others : List String) : Prop where
  subset : paths ⊆ others
  mem_or_found : ∀ text ∈ others, text ∈ paths ∨
    (Path.ofText text).IsShort ∧ ∃ path, IsFound disk paths extension path ∧
      Path.order (Path.ofText text) path = .eq

end Selected

/-! ## Source files of a list -/

/-- Letters with the carriage returns left out that stand in front of a line
feed. -/
def withLineFeeds : List Char → List Char
  | '\r' :: '\n' :: letters => '\n' :: withLineFeeds letters
  | c :: letters => c :: withLineFeeds letters
  | [] => []

/-- Some source files are those that a list of paths selects: in the order of
their paths, each path once, and each with the text that its path leads to. -/
structure AreSelected (disk : Disk) (paths : List String) (extension : String)
    (files : List SourceFile) : Prop where
  ascending : files.Pairwise fun first second =>
    Path.order first.path second.path = .lt
  isSelected : ∀ file ∈ files, IsSelected disk paths extension file.path
  complete : ∀ path, IsSelected disk paths extension path →
    ∃ file ∈ files, Path.order file.path path = .eq
  content_eq : ∀ file ∈ files, ∃ text, disk.readText file.path = .ok text ∧
    file.content = String.ofList (withLineFeeds text.toList)
  name_eq : ∀ file ∈ files, file.name = file.path.text
  stem_eq : ∀ file ∈ files, file.path.stem? = some file.stem

/-- The same source file, with its path perhaps written in another way. -/
structure Respells (first second : SourceFile) : Prop where
  order_eq : Path.order first.path second.path = .eq
  stem_eq : first.stem = second.stem
  content_eq : first.content = second.content

/-- The same refusal of a path, which is perhaps written in another way. -/
inductive RefusesAlike : BuildError → BuildError → Prop where
  | extension {first second : Path} {expected : String} :
      Path.order first second = .eq →
      RefusesAlike (.extension first expected) (.extension second expected)
  | read {first second : Path} {cause : DiskError} :
      Path.order first second = .eq →
      RefusesAlike (.read first cause) (.read second cause)

/-- Two readings have the same outcome, but for how the paths are written. -/
inductive Alike {α : Type} (same : α → α → Prop) :
    Except BuildError α → Except BuildError α → Prop where
  | ok {result other : α} :
      same result other → Alike same (.ok result) (.ok other)
  | error {cause other : BuildError} :
      RefusesAlike cause other → Alike same (.error cause) (.error other)

end SourceFile

end JackToVm
