import JackToVm.Build.Output
import JackToVm.Disk.Place

/-!
# Where outputs go

The directory and the stem of the outputs for a source. They decide where each
output stands: the outputs of a step differ in nothing else, but for the `T`
behind the stem of a token dump.
-/

namespace JackToVm.SourceFile

/-- A source file has the stem of its path, as it has in every list of sources
that is read from a disk. -/
structure WellNamed (file : SourceFile) : Prop where
  stem_eq : file.path.stem? = some file.stem
  noSlash : '/' ∉ file.stem.toList

/-- Whether the stem has no dot but at its beginning. -/
def HasPlainStem (file : SourceFile) : Prop :=
  '.' ∉ file.stem.toList.tail

instance : DecidablePred HasPlainStem :=
  fun file => inferInstanceAs (Decidable ('.' ∉ file.stem.toList.tail))

/-- The directory that the outputs for a source go to, which is its own one if
none is given, and their stem. -/
def target (origin : Location) (directory : Option Path) (file : SourceFile) :
    Location × String :=
  match directory with
  | none => ((file.path.place origin).dropLast, file.stem)
  | some given => (given.place origin, file.stem)

/-- The components of the directory that the outputs for a source go to. -/
def outputDirectory (directory : Option Path) (file : SourceFile) :
    List Path.Component :=
  match directory with
  | none => file.path.components.dropLast
  | some given => given.components

/-- Whether the stem of a token dump is the one for the stem of a source. A dot
behind the first character of a stem is taken for the beginning of an extension,
and the extension of the dump stands in its place. -/
inductive IsDumpStem : String → String → Prop where
  | plain {stem : String} :
      '.' ∉ stem.toList.tail → IsDumpStem stem (stem ++ "T")
  | cut {front rest : String} :
      front ≠ "" → '.' ∉ rest.toList →
      IsDumpStem (front ++ "." ++ rest) front

/-- An output for a source stands in the directory for it, under a name. -/
def IsOutput (directory : Option Path) (file : SourceFile) (name : String)
    (path : Path) : Prop :=
  path.components = file.outputDirectory directory ++ [.name name]

/-- The target of the token dump for a source. -/
def dumpTarget (target : Location × String) : Location × String :=
  (target.1, target.2 ++ "T")

/-- The place of an output with a target. -/
def outputPlace (extension : String) (target : Location × String) : Location :=
  target.1 ++ [Path.nameOfParts target.2 extension]

end JackToVm.SourceFile
