import JackToVm.Build

/-!
# Source files

Reading the source files that the paths of a command line name: the files with
the right extension in a directory, and files named themselves. The list is
sorted by path, and each path stands in it once.
-/

namespace JackToVm

structure SourceFile where
  name : String
  /-- The file name without its extension. -/
  stem : String
  path : Path
  content : String
deriving DecidableEq, Repr

namespace SourceFile

/-- A text with every line break that is a carriage return and a line feed
replaced by a line feed alone. -/
def normalizeLineBreaks (text : String) : String :=
  let step (c : Char) (behind : Option Char × List Char) :=
    (some c,
      if c = '\r' ∧ behind.1 = some '\n' then behind.2 else c :: behind.2)
  String.ofList (text.toList.foldr step (none, [])).2

/-- The stem of a path, which must have one. -/
def stemOf (path : Path) : Except BuildError String :=
  match path.stem? with
  | some stem => .ok stem
  | none => .error (.noStem path)

def make (name : String) (path : Path) (content : String) :
    Except BuildError SourceFile := do
  return ⟨name, ← stemOf path, path, content⟩

/-- Reads a source file. If an extension is given, the path must have it. -/
def read (disk : Disk) (extension : Option String) (path : Path) :
    Except BuildError SourceFile := do
  if let some expected := extension then
    if path.extension? ≠ some expected then
      throw (.extension path expected)
  match disk.readText path with
  | .ok content => make path.text path (normalizeLineBreaks content)
  | .error cause => throw (.read path cause)

/-- The extension in place of the one of a path; an extension is part of a
file name and holds no slash. -/
def replaceExtension (path : Path) (extension : String) :
    Except BuildError Path :=
  if '/' ∈ extension.toList then
    .error (.slashInExtension extension)
  else
    .ok (path.withExtension extension)

/-- The source file under another name. The name may be a path; its own
extension is replaced as well. -/
def rename (file : SourceFile) (name extension : String) :
    Except BuildError SourceFile := do
  let path ← replaceExtension (file.path.withFileName name) extension
  return { file with name := name, stem := ← stemOf path, path := path }

/-! ## Lists of source files -/

/-- Items sorted by path, equal paths in their old order. -/
def sortByPath {α : Type} (path : α → Path) (items : List α) : List α :=
  items.mergeSort fun first second =>
    (Path.order (path first) (path second)).isLE

/-- Of neighbours with equal paths only the first. -/
def dropRepeated {α : Type} (path : α → Path) (items : List α) : List α :=
  (items.foldl (fun kept item =>
    match kept with
    | last :: _ =>
        if Path.order (path last) (path item) = .eq then kept
        else item :: kept
    | [] => [item]) []).reverse

/-- Items sorted by path, of equal paths only the first. -/
def distinctByPath {α : Type} (path : α → Path) (items : List α) : List α :=
  dropRepeated path (sortByPath path items)

/-- The files with the given extension that lie directly in a directory, as far
as their paths lead to them: behind a long path to the directory a name may
make the path longer than a disk follows. -/
def pathsIn (disk : Disk) (extension : String) (directory : Path) :
    Except BuildError (List Path) :=
  match disk.names directory with
  | .ok names =>
      .ok ((names.map fun name => directory.join (Path.ofText name)).filter
        fun path => path.extension? == some extension && disk.isFile path)
  | .error cause => .error (.read directory cause)

/-- Reads every listed file and every file with the given extension in a
listed directory. Files found in a directory are read first. -/
def readAll (disk : Disk) (paths : List String) (extension : String) :
    Except BuildError (List SourceFile) := do
  let (directories, files) :=
    (paths.map Path.ofText).partition disk.isDirectory
  let found := (← directories.mapM (pathsIn disk extension)).flatten
  let fromDirectories ← (distinctByPath id found).mapM (read disk none)
  let listed ← (distinctByPath id files).mapM (read disk (some extension))
  return distinctByPath SourceFile.path (fromDirectories ++ listed)

end SourceFile

end JackToVm
