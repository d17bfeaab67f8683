import JackToVm.Disk
import JackToVm.Error
import JackToVm.Notice
import JackToVm.Text.Quoted

/-!
# Builds

A build reads source files from a disk, tells its user what it does and writes
files. Its state is the disk and the notices told so far; both remain when the
build fails.
-/

namespace JackToVm

structure SourceError where
  file : String
  cause : CompileError
deriving DecidableEq, Repr

def SourceError.message (error : SourceError) : String :=
  "[" ++ error.file ++ "]: " ++ error.cause.message

inductive BuildError where
  /-- A path without a file name. -/
  | noStem (path : Path)
  /-- A file whose extension is not the one asked for. -/
  | extension (path : Path) (expected : String)
  | read (path : Path) (cause : DiskError)
  | makeDirectory (path : Path) (cause : DiskError)
  | write (path : Path) (cause : DiskError)
  /-- A source file whose output would have no name. -/
  | noFileName (name : String)
  /-- A file extension that contains a slash. -/
  | slashInExtension (extension : String)
  /-- The output directory was asked for without naming it. -/
  | noOutputDirectory
  /-- None of the paths leads to a source file. -/
  | noSources (extension : String) (paths : List String)
  /-- Some of the source files are refused. -/
  | refused (failures total : Nat)
deriving DecidableEq, Repr

def BuildError.message : BuildError → Rich
  | .noStem path =>
      Rich.plain ("(ArgError) Invalid file name: `" ++ path.text ++ "`")
  | .extension path expected =>
      Rich.plain ("(ArgError) Invalid file extension on file: `" ++
        path.text ++ "`. Expected extension `." ++ expected ++ "`")
  | .read path cause =>
      Rich.plain ("(IOError) [" ++ path.text ++ "] " ++ cause.message)
  | .makeDirectory path cause =>
      Rich.plain ("(IOError) Failed to create output directory `" ++
        path.text ++ "`: " ++ cause.message)
  | .write path cause =>
      Rich.plain ("(IOError) Failed to write to file `" ++ path.text ++
        "`: " ++ cause.message)
  | .noFileName name =>
      Rich.plain ("(ArgError) No file name for `" ++ name ++ "`")
  | .slashInExtension found =>
      Rich.plain ("extension cannot contain path separators: " ++
        Text.Quoted.encode found)
  | .noOutputDirectory => Rich.plain "(ArgError) No output directory given!"
  | .noSources expected paths =>
      Rich.plain ("(ArgError) No `." ++ expected ++ "` files found in: " ++
        ", ".intercalate paths)
  | .refused failures total =>
      Rich.plain ("(ParseError) " ++ toString failures ++ " of " ++
        toString total ++ " file(s) failed. ") ++
      Rich.bold .red "Aborting compilation" ++ Rich.plain "!"

structure BuildState where
  disk : Disk
  /-- The notices told so far. -/
  notices : Array Notice

abbrev Build (α : Type) := EStateM BuildError BuildState α

namespace Build

def tell (notice : Notice) : Build Unit :=
  modify fun state => { state with notices := state.notices.push notice }

def info (message : String) : Build Unit :=
  tell (.info (Rich.plain message))

def ensureDirectory (path : Path) : Build Unit := do
  let state ← get
  if !state.disk.isDirectory path then
    let (disk, outcome) := state.disk.makeDirectories path
    set { state with disk := disk }
    match outcome with
    | .ok () => info ("Created output directory: `" ++ path.text ++ "`")
    | .error cause => throw (.makeDirectory path cause)

/-- Writes a text into a file; yields the path and the text. -/
def writeFile (path : Path) (content : String) : Build (Path × String) := do
  let state ← get
  match state.disk.writeText path content with
  | .ok disk =>
      set { state with disk := disk }
      return (path, content)
  | .error cause => throw (.write path cause)

end Build

end JackToVm
