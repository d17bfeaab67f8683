import JackToVm.Build.Source
import JackToVm.Compilation.Class
import JackToVm.Setting
import JackToVm.SymbolTable.Printout
import JackToVm.Token.Listing

/-!
# Output files

Compiling source files and writing what comes of it: a program for each
source, or a token dump and a derivation tree for each. A build that meets a
source it must refuse goes on to the last source, reports every refusal, and
writes nothing for that step.
-/

namespace JackToVm

def sourceExtension : String := "jack"

def programExtension : String := "vm"

/-- The extension of token dumps and derivation trees. -/
def markupExtension : String := "xml"

/-! ## Single sources -/

namespace SourceFile

def tokens (file : SourceFile) : Except SourceError (List Token) :=
  (Token.scan file.content).mapError fun cause => ⟨file.name, .lexical cause⟩

def tokenDump (file : SourceFile) : Except SourceError String :=
  file.tokens.map (Token.markupOfList 0)

def derivationText (file : SourceFile) : Except SourceError String := do
  let tokens ← file.tokens
  match derivation tokens with
  | .ok walk => return Step.markupOfList walk
  | .error cause => throw ⟨file.name, cause⟩

end SourceFile

namespace Build

def tellSymbols (program : Program) : Build Unit := do
  info ("Symbols of class `" ++ program.className ++ "`")
  tell (.text (Rich.plain program.classTable.printout))
  program.subroutines.forM fun (name, table) =>
    tell (.text (Rich.plain "\n" ++ Rich.bold .cyan name ++
      Rich.plain ("\n" ++ table.printout)))

/-- Compiles a source file, with notices on the progress and on what the
settings ask for. The label counters are handed on in every case. -/
def compileFile (settings : Settings) (file : SourceFile)
    (labels : LabelCounters) :
    Build (Except SourceError Program × LabelCounters) := do
  info ("Compiling file: `" ++ file.name ++ "`")
  match file.tokens with
  | .error cause => return (.error cause, labels)
  | .ok tokens =>
      if settings.isEnabled .printTokens then
        info "Tokens"
        tell (.text (Rich.plain (Token.listing tokens)))
      match compile tokens labels with
      | (.error cause, labels) => return (.error ⟨file.name, cause⟩, labels)
      | (.ok program, labels) =>
          info ("Compiled class `" ++ program.className ++ "`: " ++
            toString program.commands.length ++ " VM commands")
          if settings.isEnabled .printSymbols then
            tellSymbols program
          return (.ok program, labels)

/-! ## All sources -/

/-- Runs `step` for every source in order, handing on a state. Every refusal
is reported; the results are yielded only if there is none. -/
def forSources {α β : Type} (files : List SourceFile) (initial : β)
    (step : SourceFile → β → Build (Except SourceError α × β)) :
    Build (List α) := do
  let mut state := initial
  let mut results : Array α := #[]
  let mut failures := 0
  for file in files do
    let (outcome, next) ← step file state
    state := next
    match outcome with
    | .ok result => results := results.push result
    | .error cause =>
        failures := failures + 1
        tell (.error (Rich.plain cause.message))
  if failures > 0 then
    throw (.refused failures files.length)
  return results.toList

def forEachSource {α : Type} (files : List SourceFile)
    (step : SourceFile → Except SourceError α) : Build (List α) :=
  forSources files () fun file () => return (step file, ())

/-! ## Writing -/

/-- Where the output for a source goes: beside the source, or into the
directory given. -/
def outputPath (directory : Option Path) (extension : String)
    (file : SourceFile) : Except BuildError Path := do
  let beside ← SourceFile.replaceExtension file.path extension
  match directory with
  | none => return beside
  | some directory =>
      match beside.fileName? with
      | some name => return directory.join (Path.ofText name)
      | none => throw (.noFileName file.name)

/-- Writes one output per source, in order; the shorter list ends the
pairing. -/
def writeOutputs (outputs : List String) (files : List SourceFile)
    (directory : Option Path) (extension : String) :
    Build (List (Path × String)) :=
  (outputs.zip files).mapM fun (output, file) => do
    match outputPath directory extension file with
    | .ok path => writeFile path output
    | .error cause => throw cause

/-- Writes the token dump of every source under its stem with a `T` behind it,
and its derivation tree under its stem, in two steps. -/
def markupFiles (files : List SourceFile) (directory : Option Path) :
    Build (List (Path × String)) := do
  info "Generating XML Token files"
  let dumps ← forEachSource files SourceFile.tokenDump
  let dumpFiles ←
    match files.mapM fun file =>
        file.rename (file.stem ++ "T") markupExtension with
    | .ok renamed => pure renamed
    | .error cause => throw cause
  directory.forM ensureDirectory
  let writtenDumps ← writeOutputs dumps dumpFiles directory markupExtension
  info "Generating XML parse tree files"
  let trees ← forEachSource files SourceFile.derivationText
  let writtenTrees ← writeOutputs trees files directory markupExtension
  tell (.info (Rich.bold .green "XML generation successful"))
  return writtenDumps ++ writtenTrees

/-- Compiles every source with label numbers that go on from one to the next,
and writes the programs. -/
def programFiles (settings : Settings) (files : List SourceFile)
    (directory : Option Path) : Build (List (Path × String)) := do
  info "Generating VM files"
  let programs ←
    forSources files LabelCounters.initial (compileFile settings)
  let written ←
    writeOutputs (programs.map Program.text) files directory programExtension
  tell (.info (Rich.bold .green "Compilation successful!"))
  return written

/-! ## A whole build -/

def outputDirectory (settings : Settings) : Build (Option Path) := do
  match settings.parameters? .output with
  | none => return none
  | some [] => throw .noOutputDirectory
  | some (directory :: _) =>
      let path := Path.ofText directory
      ensureDirectory path
      return some path

/-- Builds what the settings ask for from the sources that the paths name. -/
def fromPaths (settings : Settings) (paths : List String) : Build Unit := do
  match SourceFile.readAll (← get).disk paths sourceExtension with
  | .error cause => throw cause
  | .ok [] => throw (.noSources sourceExtension paths)
  | .ok files =>
      if let some parameters := settings.parameters? .xml then
        discard <| markupFiles files (parameters.head?.map Path.ofText)
      discard <| programFiles settings files (← outputDirectory settings)

end Build

end JackToVm
