import JackToVm.Build.Report
import JackToVm.Proofs.Outputs

/-!
# Files that a build spares

A step spares the files at some places if it makes, changes and removes none of
them, whether it succeeds or fails. Making directories spares all files, and
writing markup spares the compiled programs, which have another extension.
-/

namespace JackToVm

/-! ## Disks -/

namespace Disk

section KeepsFiles

variable {wanted : Location → Prop} {first second third : Disk}

theorem KeepsFiles.refl (disk : Disk) : KeepsFiles wanted disk disk :=
  fun _ _ => rfl

theorem KeepsFiles.trans (start : KeepsFiles wanted first second)
    (finish : KeepsFiles wanted second third) :
    KeepsFiles wanted first third :=
  fun place isWanted =>
    (finish place isWanted).trans (start place isWanted)

end KeepsFiles

variable {wanted : Location → Prop} {disk after : Disk} {path : Path}

theorem keepsFiles_makeDirectory (made : disk.makeDirectory path = .ok after) :
    KeepsFiles wanted disk after := by
  obtain ⟨place, named, free, rfl⟩ := makeDirectory_eq_ok made
  intro asked _
  rw [fileAt?, fileAt?, find?_put named]
  by_cases same : asked = place
  · subst asked
    rw [if_pos rfl, free]
  · rw [if_neg same]

theorem keepsFiles_makeDirectories (disk : Disk) (path : Path) :
    KeepsFiles wanted disk (disk.makeDirectories path).1 :=
  makeAncestors_of_makeDirectory .refl .trans keepsFiles_makeDirectory disk
    path.ancestors

/-- A text that is written changes no file but the one at the place of its
path. -/
theorem keepsFiles_writeText {content : String}
    (elsewhere : ¬ wanted (path.place disk.workingDirectory))
    (written : disk.writeText path content = .ok after) :
    KeepsFiles wanted disk after := by
  obtain ⟨place, offers, _, rfl⟩ := writeText_eq_ok written
  rw [← offers.place_eq] at elsewhere
  intro asked isWanted
  rw [fileAt?, fileAt?, find?_put offers.ne_root, if_neg]
  rintro rfl
  exact elsewhere isWanted

end Disk

/-! ## Steps -/

namespace Build

/-- A step spares the files at some places. -/
def Spares {α : Type} (wanted : Location → Prop) (step : Build α) : Prop :=
  ∀ before : BuildState,
    Disk.KeepsFiles wanted before.disk (stateBehind (step.run before)).disk

theorem KeepsDisk.spares {α : Type} {wanted : Location → Prop}
    {step : Build α} (keeps : KeepsDisk step) : Spares wanted step := by
  intro before
  rw [keeps before]
  exact .refl _

namespace Spares

variable {α β : Type} {wanted : Location → Prop}

theorem bind {step : Build α} {next : α → Build β}
    (first : Spares wanted step)
    (second : ∀ value, Spares wanted (next value)) :
    Spares wanted (step >>= next) := by
  intro before
  have afterFirst := first before
  rw [EStateM.run_bind]
  cases run : step.run before with
  | ok value between =>
      rw [run] at afterFirst
      exact afterFirst.trans (second value between)
  | error cause between =>
      rw [run] at afterFirst
      exact afterFirst

/-- What follows a failure is never run. -/
theorem throw_bind (cause : BuildError) (next : α → Build β) :
    Spares wanted (MonadExcept.throw cause >>= next) :=
  fun _ => .refl _

theorem mapM {step : α → Build β} {items : List α}
    (each : ∀ item ∈ items, Spares wanted (step item)) :
    Spares wanted (items.mapM step) := by
  induction items with
  | nil => exact (KeepsDisk.pure []).spares
  | cons first others inductionHypothesis =>
      rw [List.forall_mem_cons] at each
      rw [List.mapM_cons]
      exact .bind each.1 fun _ => .bind (inductionHypothesis each.2) fun _ =>
        (KeepsDisk.pure _).spares

end Spares

section Steps

variable {wanted : Location → Prop} {files : List SourceFile}
variable {directory : Option Path} {extension : String}

theorem spares_ensureDirectory (path : Path) :
    Spares wanted (ensureDirectory path) := by
  intro before
  have got : (get : Build BuildState).run before = .ok before before := rfl
  have keeps : Disk.KeepsFiles wanted before.disk _ :=
    before.disk.keepsFiles_makeDirectories path
  unfold ensureDirectory
  rw [EStateM.run_bind, got]
  dsimp only
  split
  · cases making : before.disk.makeDirectories path with
    | mk made outcome =>
        rw [making] at keeps
        cases outcome with
        | ok _ => exact keeps
        | error _ => exact keeps
  · exact .refl _

theorem spares_outputDirectory (settings : Settings) :
    Spares wanted (outputDirectory settings) := by
  unfold outputDirectory
  split
  · exact (KeepsDisk.pure _).spares
  · exact (KeepsDisk.throw _).spares
  · exact .bind (spares_ensureDirectory _) fun _ =>
      (KeepsDisk.pure _).spares

theorem spares_writeFile {path : Path} (text : String)
    (elsewhere : ∀ origin, ¬ wanted (path.place origin)) :
    Spares wanted (writeFile path text) := by
  intro before
  rw [run_writeFile]
  split
  · next disk wrote => exact Disk.keepsFiles_writeText (elsewhere _) wrote
  · exact .refl _

theorem not_isProgramPlace_markup (target : Location × String) :
    ¬ IsProgramPlace (SourceFile.outputPlace markupExtension target) := by
  rintro ⟨directory, stem, same⟩
  have lastNames := congrArg List.getLast? same
  have lastLetters := congrArg (Option.map fun name => name.toList.getLast?)
    lastNames
  simp [SourceFile.outputPlace, Path.nameOfParts, markupExtension,
    programExtension] at lastLetters

/-- Markup has another extension than the programs. -/
theorem spares_writeOutputs_markup (texts : List String)
    (wellNamed : ∀ file ∈ files, file.WellNamed) :
    Spares IsProgramPlace
      (writeOutputs texts files directory markupExtension) := by
  unfold writeOutputs
  refine .mapM ?_
  rintro ⟨text, file⟩ member
  have named := wellNamed file (List.of_mem_zip member).2
  cases found : outputPath directory markupExtension file with
  | error cause =>
      simp only [found]
      exact (KeepsDisk.throw _).spares
  | ok path =>
      simp only [found]
      refine spares_writeFile text fun origin => ?_
      rw [SourceFile.place_of_outputPath SourceFile.isOutputExtension_markup
        named found]
      exact not_isProgramPlace_markup _

theorem spares_markupFiles (wellNamed : ∀ file ∈ files, file.WellNamed) :
    Spares IsProgramPlace (markupFiles files directory) := by
  unfold markupFiles
  refine .bind (KeepsDisk.info _).spares fun _ => ?_
  refine .bind (keepsDisk_forEachSource _).spares fun dumps => ?_
  cases rename : files.mapM fun file =>
      file.rename (file.stem ++ "T") markupExtension with
  | error cause =>
      exact .throw_bind _ _
  | ok dumpFiles =>
      simp only [pure_bind]
      have dumpsNamed := SourceFile.wellNamed_of_renameAll wellNamed rename
      have ensured :
          Spares IsProgramPlace (directory.forM ensureDirectory) := by
        cases directory with
        | none => exact (KeepsDisk.pure _).spares
        | some path => exact spares_ensureDirectory path
      refine .bind ensured fun _ => ?_
      refine .bind (spares_writeOutputs_markup dumps dumpsNamed) fun _ => ?_
      refine .bind (KeepsDisk.info _).spares fun _ => ?_
      refine .bind (keepsDisk_forEachSource _).spares fun trees => ?_
      refine .bind (spares_writeOutputs_markup trees wellNamed) fun _ => ?_
      exact .bind (KeepsDisk.tell _).spares fun _ => (KeepsDisk.pure _).spares

end Steps

end Build

end JackToVm
