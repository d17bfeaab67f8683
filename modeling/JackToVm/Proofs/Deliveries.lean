import JackToVm.Build.Report
import JackToVm.Proofs.Targets

/-!
# Deliveries

How outputs that are written one after the other end: all of them are
delivered, or one of them stalls and leaves those before it written. The path
of each output and the disk that it finds decide which.
-/

namespace JackToVm.Build

section Outputs

variable {directory : Option Path} {extension : String}
variable {disk between after : Disk} {notices : Array Notice}
variable {text : String} {file : SourceFile} {path : Path}
variable {outputs : List (String × SourceFile)} {cause : BuildError}
variable {written : List (Path × String)}

/-! ## How outputs end -/

/-- What is delivered are the texts, in order. -/
theorem Delivers.texts_eq
    (delivers : Delivers directory extension disk outputs written after) :
    written.map Prod.snd = outputs.map Prod.fst := by
  induction delivers with
  | nil => rfl
  | cons found wrote others inductionHypothesis =>
      exact congrArg (_ :: ·) inductionHypothesis

theorem Delivers.writes
    (delivers : Delivers directory extension disk outputs written after) :
    disk.Writes written after := by
  induction delivers with
  | nil => exact .nil
  | cons _ wrote _ inductionHypothesis => exact .cons wrote inductionHypothesis

/-- Every text goes to the place of the target of its source. -/
theorem Delivers.places_eq (proper : SourceFile.IsOutputExtension extension)
    (origin : Location) (wellNamed : ∀ output ∈ outputs, output.2.WellNamed)
    (delivers : Delivers directory extension disk outputs written after) :
    written.map (·.1.place origin) =
      ((outputs.map Prod.snd).map (SourceFile.target origin directory)).map
        (SourceFile.outputPlace extension) := by
  induction delivers with
  | nil => rfl
  | @cons _ _ _ file text path _ _ found _ _ inductionHypothesis =>
      rw [List.forall_mem_cons] at wellNamed
      have place : path.place origin = _ :=
        SourceFile.place_of_outputPath proper wellNamed.1 found
      simp only [List.map_cons, inductionHypothesis wellNamed.2, place]

theorem BreaksOff.of_stalls {output : String × SourceFile}
    (stalls : Stalls directory extension disk output cause) :
    BreaksOff directory extension disk (output :: outputs) disk cause :=
  ⟨[], output, outputs, [], rfl, .nil, stalls⟩

theorem BreaksOff.cons (found : outputPath directory extension file = .ok path)
    (wrote : disk.writeText path text = .ok between)
    (breaksOff : BreaksOff directory extension between outputs after cause) :
    BreaksOff directory extension disk ((text, file) :: outputs) after
      cause := by
  obtain ⟨done, next, rest, written, rfl, delivers, stalls⟩ := breaksOff
  exact ⟨(text, file) :: done, next, rest, (path, text) :: written, rfl,
    .cons found wrote delivers, stalls⟩

theorem delivers_or_breaksOff (directory : Option Path) (extension : String)
    (disk : Disk) (outputs : List (String × SourceFile)) :
    (∃ written after,
        Delivers directory extension disk outputs written after) ∨
      ∃ after cause,
        BreaksOff directory extension disk outputs after cause := by
  induction outputs generalizing disk with
  | nil => exact .inl ⟨[], disk, .nil⟩
  | cons output others inductionHypothesis =>
      obtain ⟨text, file⟩ := output
      cases found : outputPath directory extension file with
      | error cause => exact .inr ⟨disk, cause, .of_stalls (.inl found)⟩
      | ok path =>
          cases wrote : disk.writeText path text with
          | error refusal =>
              exact .inr ⟨disk, .write path refusal,
                .of_stalls (.inr ⟨path, refusal, found, wrote, rfl⟩)⟩
          | ok between =>
              rcases inductionHypothesis between with
                ⟨written, after, delivers⟩ | ⟨after, cause, breaksOff⟩
              · exact .inl ⟨_, after, .cons found wrote delivers⟩
              · exact .inr ⟨after, cause, .cons found wrote breaksOff⟩

/-! ## The step that writes them -/

/-- Writes one output. -/
def writeOutput (directory : Option Path) (extension : String)
    (output : String × SourceFile) : Build (Path × String) :=
  match outputPath directory extension output.2 with
  | .ok path => writeFile path output.1
  | .error cause => throw cause

/-- Writes some outputs in order. -/
def writeAll (directory : Option Path) (extension : String)
    (outputs : List (String × SourceFile)) : Build (List (Path × String)) :=
  outputs.mapM (writeOutput directory extension)

theorem writeOutputs_eq_writeAll (texts : List String)
    (files : List SourceFile) :
    writeOutputs texts files directory extension =
      writeAll directory extension (texts.zip files) :=
  rfl

theorem run_writeFile (path : Path) (content : String) (before : BuildState) :
    (writeFile path content).run before =
      match before.disk.writeText path content with
      | .ok disk => .ok (path, content) ⟨disk, before.notices⟩
      | .error cause => .error (.write path cause) before := by
  have got : (get : Build BuildState).run before = .ok before before := rfl
  unfold writeFile
  rw [EStateM.run_bind, got]
  cases wrote : before.disk.writeText path content with
  | ok disk =>
      simp only [wrote]
      rfl
  | error cause =>
      simp only [wrote]
      rfl

theorem run_writeOutput_of_stalls {output : String × SourceFile}
    (stalls : Stalls directory extension disk output cause) :
    (writeOutput directory extension output).run ⟨disk, notices⟩ =
      .error cause ⟨disk, notices⟩ := by
  unfold writeOutput
  rcases stalls with noPath | ⟨path, refusal, found, refused, rfl⟩
  · rw [noPath]
    rfl
  · rw [found]
    simp only [run_writeFile, refused]

theorem run_writeAll_cons
    (found : outputPath directory extension file = .ok path)
    (wrote : disk.writeText path text = .ok between) :
    (writeAll directory extension ((text, file) :: outputs)).run
        ⟨disk, notices⟩ =
      match (writeAll directory extension outputs).run ⟨between, notices⟩ with
      | .ok written behind => .ok ((path, text) :: written) behind
      | .error cause behind => .error cause behind := by
  have first :
      (writeOutput directory extension (text, file)).run ⟨disk, notices⟩ =
        .ok (path, text) ⟨between, notices⟩ := by
    unfold writeOutput
    rw [found]
    simp only [run_writeFile, wrote]
  rw [writeAll, List.mapM_cons, EStateM.run_bind, first]
  dsimp only
  rw [EStateM.run_bind, writeAll]
  cases (outputs.mapM (writeOutput directory extension)).run
    ⟨between, notices⟩ <;> rfl

theorem run_writeAll_of_delivers
    (delivers : Delivers directory extension disk outputs written after) :
    (writeAll directory extension outputs).run ⟨disk, notices⟩ =
      .ok written ⟨after, notices⟩ := by
  induction delivers with
  | nil => rfl
  | cons found wrote others inductionHypothesis =>
      rw [run_writeAll_cons found wrote, inductionHypothesis]

theorem run_writeAll_of_breaksOff
    (breaksOff : BreaksOff directory extension disk outputs after cause) :
    (writeAll directory extension outputs).run ⟨disk, notices⟩ =
      .error cause ⟨after, notices⟩ := by
  obtain ⟨done, next, rest, written, rfl, delivers, stalls⟩ := breaksOff
  have before : (done.mapM (writeOutput directory extension)).run
      ⟨disk, notices⟩ = .ok written ⟨after, notices⟩ :=
    run_writeAll_of_delivers delivers
  rw [writeAll, List.mapM_append, EStateM.run_bind, before]
  dsimp only
  rw [List.mapM_cons, EStateM.run_bind, EStateM.run_bind,
    run_writeOutput_of_stalls stalls]

/-- Outputs that are written are delivered. -/
theorem delivers_of_writeAll {before behind : BuildState}
    (run : (writeAll directory extension outputs).run before =
      .ok written behind) :
    Delivers directory extension before.disk outputs written
      behind.disk := by
  rcases delivers_or_breaksOff directory extension before.disk outputs with
    ⟨others, last, delivers⟩ | ⟨last, cause, breaksOff⟩
  · have ended : (writeAll directory extension outputs).run before = _ :=
      run_writeAll_of_delivers delivers
    rw [ended] at run
    obtain ⟨rfl, rfl⟩ := EStateM.Result.ok.inj run
    exact delivers
  · have ended : (writeAll directory extension outputs).run before = _ :=
      run_writeAll_of_breaksOff breaksOff
    rw [ended] at run
    cases run

end Outputs

end JackToVm.Build
