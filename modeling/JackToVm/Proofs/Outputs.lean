import JackToVm.Proofs.Deliveries
import JackToVm.Proofs.Places
import JackToVm.Proofs.Sources
import JackToVm.Proofs.Targets
import JackToVm.Proofs.Transcripts

/-!
# What is left of outputs

A step of a build compiles all its sources before it writes, and then it writes
one output after the other. Outputs with one target share a file, which holds
the last of them; where the targets are different, nothing is lost.
-/

namespace JackToVm.Build

/-! ## Builds that write nothing -/

/-- The state behind a build, whether it succeeds or not. -/
def stateBehind {α : Type} :
    EStateM.Result BuildError BuildState α → BuildState
  | .ok _ behind => behind
  | .error _ behind => behind

/-- A build leaves the disk as it is. -/
def KeepsDisk {α : Type} (step : Build α) : Prop :=
  ∀ before, (stateBehind (step.run before)).disk = before.disk

namespace KeepsDisk

variable {α β : Type}

theorem pure (value : α) : KeepsDisk (Pure.pure value : Build α) :=
  fun _ => rfl

theorem throw (cause : BuildError) :
    KeepsDisk (MonadExcept.throw cause : Build α) :=
  fun _ => rfl

theorem tell (notice : Notice) : KeepsDisk (Build.tell notice) :=
  fun _ => rfl

theorem info (message : String) : KeepsDisk (Build.info message) :=
  fun _ => rfl

theorem disk_eq {step : Build α} {before after : BuildState} {result : α}
    (keeps : KeepsDisk step) (run : step.run before = .ok result after) :
    after.disk = before.disk := by
  have same := keeps before
  rw [run] at same
  exact same

end KeepsDisk

theorem Tells.keepsDisk {α : Type} {step : Build α}
    {outcome : Except BuildError α} {notices : List Notice}
    (told : Tells step outcome notices) : KeepsDisk step := by
  intro before
  rw [told before]
  cases outcome <;> rfl

/-! ## Writing -/

section Writing

variable {outputs : List String} {files : List SourceFile}
variable {directory : Option Path} {extension : String} {path : Path}
variable {before after : BuildState} {written : List (Path × String)}

/-- The outputs are written in order, each at the place of its target. -/
theorem writes_of_writeOutputs
    (proper : SourceFile.IsOutputExtension extension) (origin : Location)
    (sameLength : outputs.length = files.length)
    (run : (writeOutputs outputs files directory extension).run before =
      .ok written after) :
    before.disk.Writes written after.disk ∧
      written.map Prod.snd = outputs ∧
      ((∀ file ∈ files, file.WellNamed) →
        written.map (·.1.place origin) =
          (files.map (SourceFile.target origin directory)).map
            (SourceFile.outputPlace extension)) := by
  have delivers : Delivers directory extension before.disk
      (outputs.zip files) written after.disk :=
    delivers_of_writeAll run
  have texts := List.map_fst_zip (Nat.le_of_eq sameLength)
  have sources := List.map_snd_zip (Nat.le_of_eq sameLength.symm)
  refine ⟨delivers.writes, delivers.texts_eq.trans texts, ?_⟩
  intro wellNamed
  have zipNamed : ∀ output ∈ outputs.zip files, output.2.WellNamed :=
    fun output member =>
      wellNamed output.2 (List.of_mem_zip member).2
  rw [delivers.places_eq proper origin zipNamed, sources]

theorem keepsDirectories_ensureDirectory
    (run : (ensureDirectory path).run before = .ok () after) :
    before.disk.KeepsDirectories after.disk := by
  unfold ensureDirectory at run
  obtain ⟨state, _, got, run⟩ := EStateM.run_bind_eq_ok_iff.mp run
  obtain ⟨rfl, rfl⟩ := EStateM.Result.ok.inj got
  by_cases missing : (!before.disk.isDirectory path) = true
  · simp only [if_pos missing] at run
    obtain ⟨_, between, stored, run⟩ := EStateM.run_bind_eq_ok_iff.mp run
    obtain ⟨rfl, rfl⟩ := EStateM.Result.ok.inj stored
    have keeps := before.disk.keepsDirectories_makeDirectories path
    split at run
    · have same := (KeepsDisk.info _).disk_eq run
      rw [same]
      exact keeps
    · exact absurd run EStateM.run_throw_ne_ok
  · simp only [if_neg missing] at run
    obtain ⟨_, rfl⟩ := EStateM.run_pure_eq_ok_iff.mp run
    exact .refl _

end Writing

/-! ## The outputs of a build -/

section Outputs

variable {files : List SourceFile} {directory : Option Path}
variable {settings : Settings}
variable {before after : BuildState} {written : List (Path × String)}

/-- The programs are written in order, each at the place of its source. -/
theorem writes_of_programFiles
    (run : (programFiles settings files directory).run before =
      .ok written after) :
    before.disk.Writes written after.disk ∧
      written.length = files.length ∧
      ((∀ file ∈ files, file.WellNamed) → ∀ origin,
        written.map (·.1.place origin) =
          (files.map (SourceFile.target origin directory)).map
            (SourceFile.outputPlace programExtension)) := by
  unfold programFiles at run
  obtain ⟨_, told, inform, run⟩ := EStateM.run_bind_eq_ok_iff.mp run
  obtain ⟨programs, compiled, compile, run⟩ :=
    EStateM.run_bind_eq_ok_iff.mp run
  obtain ⟨outputs, stored, write, run⟩ := EStateM.run_bind_eq_ok_iff.mp run
  obtain ⟨_, reported, report, run⟩ := EStateM.run_bind_eq_ok_iff.mp run
  obtain ⟨rfl, rfl⟩ := EStateM.run_pure_eq_ok_iff.mp run
  have toldDisk := (KeepsDisk.info _).disk_eq inform
  have all := tells_compileAll settings files
  have compiledDisk := all.keepsDisk.disk_eq compile
  have reportedDisk := (KeepsDisk.tell _).disk_eq report
  have sameLength : (programs.map Program.text).length = files.length := by
    rw [List.length_map, length_of_collect (all.outcome_eq compile),
      length_answersFor]
  have wrote := fun origin => writes_of_writeOutputs
    SourceFile.isOutputExtension_program origin sameLength write
  refine ⟨?_, ?_, ?_⟩
  · rw [reportedDisk, ← toldDisk, ← compiledDisk]
    exact (wrote []).1
  · rw [← sameLength, ← (wrote []).2.1, List.length_map]
  · intro wellNamed origin
    exact (wrote origin).2.2 wellNamed

theorem keepsDirectories_forM_ensureDirectory
    (run : (directory.forM ensureDirectory).run before = .ok () after) :
    before.disk.KeepsDirectories after.disk := by
  cases directory with
  | none =>
      obtain ⟨_, rfl⟩ := EStateM.run_pure_eq_ok_iff.mp run
      exact .refl _
  | some path => exact keepsDirectories_ensureDirectory run

theorem keepsDisk_forEachSource {α : Type}
    (step : SourceFile → Except SourceError α) :
    KeepsDisk (forEachSource files step) :=
  (tells_forEachSource files step).keepsDisk

theorem answers_of_forEachSource {α : Type}
    {step : SourceFile → Except SourceError α} {results : List α}
    (run : (forEachSource files step).run before = .ok results after) :
    List.Forall₂ (fun file result => step file = .ok result) files
      results := by
  have answers :=
    eq_map_ok_of_collect ((tells_forEachSource files step).outcome_eq run)
  rw [← List.forall₂_eq_eq_eq] at answers
  rwa [List.forall₂_map_left_iff, List.forall₂_map_right_iff] at answers

/-- A step that writes markup first names the files of its token dumps and
makes the directory, and then writes the token dumps and after them the
derivation trees, one of each for every source. Only its writing changes
files. -/
theorem markupFiles_eq_ok
    (run : (markupFiles files directory).run before = .ok written after) :
    ∃ dumps trees dumpFiles writtenDumps writtenTrees,
      ∃ made dumped parsed planted : BuildState,
        written = writtenDumps ++ writtenTrees ∧
        List.Forall₂ (fun file dump => file.tokenDump = .ok dump) files
          dumps ∧
        List.Forall₂ (fun file tree => file.derivationText = .ok tree) files
          trees ∧
        (files.mapM fun file =>
          file.rename (file.stem ++ "T") markupExtension) = .ok dumpFiles ∧
        before.disk.KeepsDirectories made.disk ∧
        (writeOutputs dumps dumpFiles directory markupExtension).run made =
          .ok writtenDumps dumped ∧
        parsed.disk = dumped.disk ∧
        (writeOutputs trees files directory markupExtension).run parsed =
          .ok writtenTrees planted ∧
        after.disk = planted.disk := by
  unfold markupFiles at run
  obtain ⟨_, told, inform, run⟩ := EStateM.run_bind_eq_ok_iff.mp run
  obtain ⟨dumps, scanned, scan, run⟩ := EStateM.run_bind_eq_ok_iff.mp run
  cases rename : files.mapM fun file =>
      file.rename (file.stem ++ "T") markupExtension with
  | error cause =>
      simp only [rename] at run
      obtain ⟨_, _, thrown, _⟩ := EStateM.run_bind_eq_ok_iff.mp run
      exact absurd thrown EStateM.run_throw_ne_ok
  | ok dumpFiles =>
      simp only [rename, pure_bind] at run
      obtain ⟨_, made, ensure, run⟩ := EStateM.run_bind_eq_ok_iff.mp run
      obtain ⟨writtenDumps, dumped, writeDumps, run⟩ :=
        EStateM.run_bind_eq_ok_iff.mp run
      obtain ⟨_, _, informTrees, run⟩ := EStateM.run_bind_eq_ok_iff.mp run
      obtain ⟨trees, parsed, parse, run⟩ := EStateM.run_bind_eq_ok_iff.mp run
      obtain ⟨writtenTrees, planted, writeTrees, run⟩ :=
        EStateM.run_bind_eq_ok_iff.mp run
      obtain ⟨_, reported, report, run⟩ := EStateM.run_bind_eq_ok_iff.mp run
      obtain ⟨rfl, rfl⟩ := EStateM.run_pure_eq_ok_iff.mp run
      have keeps := keepsDirectories_forM_ensureDirectory ensure
      rw [(keepsDisk_forEachSource _).disk_eq scan,
        (KeepsDisk.info _).disk_eq inform] at keeps
      have parsedDisk := (keepsDisk_forEachSource _).disk_eq parse
      rw [(KeepsDisk.info _).disk_eq informTrees] at parsedDisk
      have reportedDisk := (KeepsDisk.tell _).disk_eq report
      exact ⟨dumps, trees, dumpFiles, writtenDumps, writtenTrees, made, dumped,
        parsed, planted, rfl, answers_of_forEachSource scan,
        answers_of_forEachSource parse, rfl, keeps, writeDumps, parsedDisk,
        writeTrees, reportedDisk⟩

/-- The token dumps are written in order, and then the derivation trees. If no
stem holds a dot behind its first character, each stands at the place of its
source. -/
theorem writes_of_markupFiles
    (run : (markupFiles files directory).run before = .ok written after) :
    ∃ between : Disk, before.disk.KeepsDirectories between ∧
      between.Writes written after.disk ∧
      written.length = files.length + files.length ∧
      ((∀ file ∈ files, file.WellNamed) →
        (∀ file ∈ files, file.HasPlainStem) → ∀ origin,
          let targets := files.map (SourceFile.target origin directory)
          written.map (·.1.place origin) =
            (targets.map SourceFile.dumpTarget ++ targets).map
              (SourceFile.outputPlace markupExtension)) := by
  obtain ⟨dumps, trees, dumpFiles, writtenDumps, writtenTrees, made, dumped,
    parsed, planted, rfl, scanned, derived, rename, keeps, writeDumps,
    parsedDisk, writeTrees, lastDisk⟩ := markupFiles_eq_ok run
  have dumpLength := scanned.length_eq.symm
  have treeLength := derived.length_eq.symm
  have sameLength : dumps.length = dumpFiles.length := by
    rw [dumpLength, Except.length_of_mapM rename]
  have wroteDumps := fun origin => writes_of_writeOutputs
    SourceFile.isOutputExtension_markup origin sameLength writeDumps
  have wroteTrees := fun origin => writes_of_writeOutputs
    SourceFile.isOutputExtension_markup origin treeLength writeTrees
  refine ⟨made.disk, keeps, ?_, ?_, ?_⟩
  · have secondWrites := (wroteTrees []).1
    rw [parsedDisk, ← lastDisk] at secondWrites
    exact (wroteDumps []).1.append secondWrites
  · have dumpsWritten := congrArg List.length (wroteDumps []).2.1
    have treesWritten := congrArg List.length (wroteTrees []).2.1
    rw [List.length_map] at dumpsWritten treesWritten
    rw [List.length_append, dumpsWritten, treesWritten, dumpLength, treeLength]
  · intro wellNamed plain origin targets
    have dumpsNamed := SourceFile.wellNamed_of_renameAll wellNamed rename
    rw [List.map_append, (wroteDumps origin).2.2 dumpsNamed,
      (wroteTrees origin).2.2 wellNamed,
      SourceFile.targets_of_rename wellNamed plain rename, List.map_append]

end Outputs

end JackToVm.Build
