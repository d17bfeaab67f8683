import JackToVm.Application
import JackToVm.Compilation.Run

/-!
# What a build reports and leaves

A build step compiles every source in a turn of its own, whatever became of the
others. This module says what it tells of each turn, what becomes of outputs
that are written one after the other, and which files a build may not touch
unless every source is compiled.
-/

namespace JackToVm

/-- Whether the source of a turn is refused. -/
def Turn.isRefused (turn : Turn) : Bool :=
  match turn.answer with
  | .ok _ => false
  | .error _ => true

namespace Build

/-! ## Turns -/

/-- The turns of some source files: one for each, in order, and each goes on
with the label numbers that those before it have left. -/
def turnsOf (files : List SourceFile) : List Turn :=
  Turn.ofSources (files.map SourceFile.content) LabelCounters.initial

/-- What is told of the tokens of a source. -/
def tokenNotices (settings : Settings) (source : String) : List Notice :=
  match Token.scan source with
  | .ok tokens =>
      if settings.isEnabled .printTokens then
        [.info (Rich.plain "Tokens"),
          .text (Rich.plain (Token.listing tokens))]
      else
        []
  | .error _ => []

def symbolNotices (program : Program) : List Notice :=
  .info (Rich.plain ("Symbols of class `" ++ program.className ++ "`")) ::
    .text (Rich.plain program.classTable.printout) ::
    program.subroutines.map fun (name, table) =>
      .text (Rich.plain "\n" ++ Rich.bold .cyan name ++
        Rich.plain ("\n" ++ table.printout))

/-- What is told of a program that is compiled. -/
def programNotices (settings : Settings) (program : Program) : List Notice :=
  .info (Rich.plain ("Compiled class `" ++ program.className ++ "`: " ++
      toString program.commands.length ++ " VM commands")) ::
    if settings.isEnabled .printSymbols then symbolNotices program else []

/-- What is told while a source file has its turn. -/
def progressNotices (settings : Settings) (file : SourceFile) (turn : Turn) :
    List Notice :=
  .info (Rich.plain ("Compiling file: `" ++ file.name ++ "`")) ::
    (tokenNotices settings turn.source ++
      match turn.answer with
      | .ok program => programNotices settings program
      | .error _ => [])

/-- What is told of an answer to a source file: the cause of a refusal. -/
def refusalNotices {α : Type} : Except SourceError α → List Notice
  | .ok _ => []
  | .error cause => [.error (Rich.plain cause.message)]

/-- The answer of a turn, with the name of the source file that is refused. -/
def answerFor (file : SourceFile) (turn : Turn) :
    Except SourceError Program :=
  turn.answer.mapError fun cause => ⟨file.name, cause⟩

/-- What is told of the turn of a source file: that it begins, and how it
ends. -/
def turnNotices (settings : Settings) (file : SourceFile) (turn : Turn) :
    List Notice :=
  progressNotices settings file turn ++ refusalNotices (answerFor file turn)

/-- All that is told until every source has had its turn. -/
def transcript (settings : Settings) (files : List SourceFile) :
    List Notice :=
  .info (Rich.plain "Generating VM files") ::
    (files.zip (turnsOf files)).flatMap fun (file, turn) =>
      turnNotices settings file turn

/-! ## Outputs one after the other -/

section Outputs

variable (directory : Option Path) (extension : String)

/-- Every text is written to the path of the output for its source, in
order. -/
inductive Delivers :
    Disk → List (String × SourceFile) → List (Path × String) → Disk →
      Prop where
  | nil {disk : Disk} : Delivers disk [] [] disk
  | cons {before between after : Disk} {file : SourceFile} {text : String}
      {path : Path} {others : List (String × SourceFile)}
      {written : List (Path × String)} :
      outputPath directory extension file = .ok path →
      before.writeText path text = .ok between →
      Delivers between others written after →
      Delivers before ((text, file) :: others) ((path, text) :: written)
        after

/-- An output for a source cannot be written: it has no path, or the disk
refuses it there. -/
def Stalls (disk : Disk) (output : String × SourceFile)
    (cause : BuildError) : Prop :=
  outputPath directory extension output.2 = .error cause ∨
    ∃ path refusal, outputPath directory extension output.2 = .ok path ∧
      disk.writeText path output.1 = .error refusal ∧
      cause = .write path refusal

/-- Outputs are written in order, up to the first one that cannot be. -/
def BreaksOff (before : Disk) (outputs : List (String × SourceFile))
    (after : Disk) (cause : BuildError) : Prop :=
  ∃ done next rest written, outputs = done ++ next :: rest ∧
    Delivers directory extension before done written after ∧
    Stalls directory extension after next cause

end Outputs

/-! ## Sources that are not compiled -/

/-- Some source cannot be cut into tokens, or is no class, or is refused in
its turn. -/
def HasRefusal (files : List SourceFile) : Prop :=
  (∃ file ∈ files, ∃ cause, file.tokens = .error cause) ∨
    (∃ file ∈ files, ∃ cause, file.derivationText = .error cause) ∨
    ∃ turn ∈ turnsOf files, turn.isRefused = true

end Build

/-! ## Files that stay -/

/-- A place with the name of a compiled program. -/
def IsProgramPlace (place : Location) : Prop :=
  ∃ directory stem, place = directory ++ [stem ++ "." ++ programExtension]

namespace Disk

/-- The content of the file at a place, if one stands there. -/
def fileAt? (disk : Disk) (place : Location) : Option FileContent :=
  match disk.find? place with
  | some (.file content) => some content
  | _ => none

/-- At places of one kind no file is made, changed or removed. -/
def KeepsFiles (wanted : Location → Prop) (before after : Disk) : Prop :=
  ∀ place, wanted place → after.fileAt? place = before.fileAt? place

end Disk

end JackToVm
