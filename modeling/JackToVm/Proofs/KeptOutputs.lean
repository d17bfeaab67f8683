import JackToVm.Proofs.Outputs

/-!
# Outputs that are kept

A build that succeeds leaves each output in its file, unless a later one goes
to the same file. That depends on the targets of the sources alone. Nothing
keeps sources from having one target: with an output directory two sources
with one stem share it, the token dump of one source may be named as the
derivation tree of another, and one file may be listed by two paths.
-/

namespace JackToVm.Build

open SourceFile (target dumpTarget readAll HasPlainStem)

section Kept

variable {disk : Disk} {paths : List String} {files : List SourceFile}
variable {directory : Option Path} {settings : Settings}
variable {before after : BuildState} {written : List (Path × String)}

theorem separates_programs (wellNamed : ∀ file ∈ files, file.WellNamed)
    (run : (programFiles settings files directory).run before =
      .ok written after) :
    after.disk.Separates written ↔
      (files.map (target before.disk.workingDirectory directory)).Nodup := by
  obtain ⟨writes, _, places⟩ := writes_of_programFiles run
  have injective := SourceFile.outputPlace_injective
    SourceFile.isOutputExtension_program
  rw [Disk.Separates, writes.keepsDirectories.workingDirectory_eq,
    places wellNamed, List.nodup_map_iff injective]

theorem separates_markup (wellNamed : ∀ file ∈ files, file.WellNamed)
    (plain : ∀ file ∈ files, file.HasPlainStem)
    (run : (markupFiles files directory).run before = .ok written after) :
    let targets := files.map (target before.disk.workingDirectory directory)
    after.disk.Separates written ↔
      targets.Nodup ∧ ∀ target ∈ targets, dumpTarget target ∉ targets := by
  obtain ⟨between, keeps, writes, _, places⟩ := writes_of_markupFiles run
  have injective := SourceFile.outputPlace_injective
    SourceFile.isOutputExtension_markup
  intro targets
  rw [Disk.Separates, writes.keepsDirectories.workingDirectory_eq,
    keeps.workingDirectory_eq, places wellNamed plain,
    List.nodup_map_iff injective, SourceFile.nodup_dumpTargets]

/-- After a build that succeeds there is an output for each program, token dump
and derivation tree, and each path leads to the last text that was written to
its file. No output is lost if the files of all outputs are different. Programs
go to different files exactly if no two sources have one target. The same holds
for token dumps and derivation trees of sources with plain stems, if in
addition no token dump has the target of a source. -/
theorem outputs_kept (listed : readAll disk paths sourceExtension = .ok files)
    (settings : Settings) (directory : Option Path) (before : BuildState) :
    let targets := files.map (target before.disk.workingDirectory directory)
    (∀ written after,
      (programFiles settings files directory).run before = .ok written after →
        written.length = files.length ∧
        after.disk.HoldsLast written ∧
        (after.disk.Separates written → after.disk.Keeps written) ∧
        (after.disk.Separates written ↔ targets.Nodup)) ∧
    (∀ written after,
      (markupFiles files directory).run before = .ok written after →
        written.length = files.length + files.length ∧
        after.disk.HoldsLast written ∧
        (after.disk.Separates written → after.disk.Keeps written) ∧
        ((∀ file ∈ files, file.HasPlainStem) →
          (after.disk.Separates written ↔
            targets.Nodup ∧
              ∀ target ∈ targets, dumpTarget target ∉ targets))) := by
  have wellNamed := SourceFile.wellNamed_of_readAll listed
  intro targets
  constructor
  · intro written after run
    obtain ⟨writes, sameLength, _⟩ := writes_of_programFiles run
    exact ⟨sameLength, writes.holdsLast, writes.holdsLast.keeps,
      separates_programs wellNamed run⟩
  · intro written after run
    obtain ⟨between, _, writes, sameLength, _⟩ := writes_of_markupFiles run
    exact ⟨sameLength, writes.holdsLast, writes.holdsLast.keeps,
      fun plain => separates_markup wellNamed plain run⟩

end Kept

/-! ## Sources with one name -/

/-- A source file as it is read through a path. -/
def sourceAt (directory : Option String) (stem content : String) :
    SourceFile :=
  let name := stem ++ ".jack"
  let path : Path :=
    match directory with
    | none => ⟨name, []⟩
    | some directory => ⟨directory, [name]⟩
  ⟨path.text, stem, path, content⟩

/-- A disk with some source files and with directories for them and for
outputs. -/
def diskOf (files : List SourceFile) : Disk where
  entries :=
    [(["x"], .directory), (["y"], .directory), (["out"], .directory)] ++
      (files.map fun file =>
        (file.path.place [], .file (.text file.content))).eraseDups
  workingDirectory := []

/-- Two source files with one stem in two directories. -/
def namesakes : List SourceFile :=
  [sourceAt (some "x") "A" "class A { }",
    sourceAt (some "y") "A" "class A { function int f ( ) { return 1 ; } }"]

/-- A source file, and one whose stem is that of the token dump of the
first. -/
def dumpNamesakes : List SourceFile :=
  [sourceAt none "A" "class A { }", sourceAt none "AT" "class AT { }"]

/-- A source file that is listed by two paths. Its loop has other labels when
it is compiled again. -/
def listedTwice : List SourceFile :=
  let content :=
    "class A { function void f ( ) { while ( true ) { } return ; } }"
  [sourceAt (some ".") "A" content, sourceAt none "A" content]

theorem outputs_kept_namesakes :
    readAll (diskOf namesakes) ["x/A.jack", "y/A.jack"] sourceExtension =
        .ok namesakes ∧
      ((programFiles {} namesakes none).run ⟨diskOf namesakes, #[]⟩).Yields
        (fun written after => after.disk.Keeps written) ∧
      ((markupFiles namesakes none).run ⟨diskOf namesakes, #[]⟩).Yields
        (fun written after => after.disk.Keeps written) := by
  have listed :
      readAll (diskOf namesakes) ["x/A.jack", "y/A.jack"] sourceExtension =
        .ok namesakes :=
    SourceFile.readAll_eq (by decide +kernel) (by decide +kernel)
      (by decide +kernel)
  obtain ⟨programs, markup⟩ :=
    outputs_kept listed {} none ⟨diskOf namesakes, #[]⟩
  refine ⟨listed, ?_, ?_⟩
  · have succeeds :
        ((programFiles {} namesakes none).run ⟨diskOf namesakes, #[]⟩).Yields
          fun _ _ => True := by
      decide +kernel
    obtain ⟨written, after, run, _⟩ := succeeds
    obtain ⟨_, _, keeps, separates⟩ := programs written after run
    exact ⟨written, after, run, keeps (separates.mpr (by decide))⟩
  · have succeeds :
        ((markupFiles namesakes none).run ⟨diskOf namesakes, #[]⟩).Yields
          fun _ _ => True := by
      decide +kernel
    obtain ⟨written, after, run, _⟩ := succeeds
    obtain ⟨_, _, keeps, separates⟩ := markup written after run
    exact ⟨written, after, run,
      keeps ((separates (by decide)).mpr (by decide))⟩

/-- Three builds that succeed and lose an output: of two sources with one stem
in an output directory the first program, of a source and another one with the
name of its token dump that dump, and of a source that is listed twice the
program that was compiled first. -/
theorem outputs_lost :
    (readAll (diskOf namesakes) ["x/A.jack", "y/A.jack"] sourceExtension =
        .ok namesakes ∧
      ((programFiles {} namesakes (some (Path.ofText "out"))).run
          ⟨diskOf namesakes, #[]⟩).Yields
        fun written after => ¬ after.disk.Keeps written) ∧
    (readAll (diskOf dumpNamesakes) ["A.jack", "AT.jack"] sourceExtension =
        .ok dumpNamesakes ∧
      ((markupFiles dumpNamesakes none).run
          ⟨diskOf dumpNamesakes, #[]⟩).Yields
        fun written after => ¬ after.disk.Keeps written) ∧
    (readAll (diskOf listedTwice) ["./A.jack", "A.jack"] sourceExtension =
        .ok listedTwice ∧
      ((programFiles {} listedTwice none).run
          ⟨diskOf listedTwice, #[]⟩).Yields
        fun written after => ¬ after.disk.Keeps written) := by
  refine ⟨⟨?_, by decide +kernel⟩, ⟨?_, by decide +kernel⟩,
    ⟨?_, by decide +kernel⟩⟩
  all_goals
    exact SourceFile.readAll_eq (by decide +kernel) (by decide +kernel)
      (by decide +kernel)

end JackToVm.Build
