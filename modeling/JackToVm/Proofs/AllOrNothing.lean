import JackToVm.Proofs.Deliveries
import JackToVm.Proofs.DerivationTexts
import JackToVm.Proofs.KeptOutputs
import JackToVm.Proofs.RunLabels
import JackToVm.Proofs.SparedFiles
import JackToVm.Proofs.Transcripts

/-!
# All or nothing

Programs are written only if every source is compiled. Then they are written
one after the other, and only the disk can put an end to that.
-/

namespace JackToVm

namespace Build

/-! ## Compiling and writing -/

section Programs

variable {settings : Settings} {files : List SourceFile}
variable {directory : Option Path} {before : BuildState}

theorem run_programFiles_of_refused
    (someRefused : ∃ turn ∈ turnsOf files, turn.isRefused = true) :
    (programFiles settings files directory).run before =
      .error (.refused ((turnsOf files).countP Turn.isRefused) files.length)
        ⟨before.disk,
          before.notices ++ (transcript settings files).toArray⟩ := by
  have compiled := tells_compileAll settings files
  rw [collect_of_refused someRefused] at compiled
  have whole : Tells (programFiles settings files directory) _
      (transcript settings files) := .cons (compiled.bindError _)
  exact whole before

/-- If every source is compiled, a step goes on to write the programs. -/
theorem run_programFiles_of_accepted {programs : List Program}
    (compiled : collect (answersFor files) = .ok programs) :
    let told := before.notices ++ (transcript settings files).toArray
    (programFiles settings files directory).run before =
      match (writeOutputs (programs.map Program.text) files directory
        programExtension).run ⟨before.disk, told⟩ with
      | .ok written after =>
          .ok written ⟨after.disk, after.notices.push
            (.info (Rich.bold .green "Compilation successful!"))⟩
      | .error cause after => .error cause after := by
  intro told
  have all := tells_compileAll settings files
  rw [compiled] at all
  have start : Tells (do
      info "Generating VM files"
      forSources files LabelCounters.initial (compileFile settings))
      (.ok programs) (transcript settings files) := .cons all
  -- The notice at the beginning belongs to what is told, so it is drawn to the
  -- step that compiles.
  have first : programFiles settings files directory = (do
      let programs ← (do
        info "Generating VM files"
        forSources files LabelCounters.initial (compileFile settings))
      let written ← writeOutputs (programs.map Program.text) files directory
        programExtension
      tell (.info (Rich.bold .green "Compilation successful!"))
      return written) := by
    rw [bind_assoc]
    rfl
  rw [first, EStateM.run_bind, start before]
  simp only [endIn]
  rw [EStateM.run_bind]
  cases (writeOutputs (programs.map Program.text) files directory
    programExtension).run ⟨before.disk, told⟩ <;> rfl

end Programs

/-! ## Sources that are refused -/

section Refused

variable {files : List SourceFile}

theorem exists_turn {file : SourceFile} (member : file ∈ files) :
    ∃ turn ∈ turnsOf files, turn.source = file.content := by
  have within : file.content ∈ files.map SourceFile.content :=
    List.mem_map_of_mem member
  rw [← map_source_turnsOf] at within
  exact List.mem_map.mp within

/-- No counters have more numbers left than the first ones. -/
theorem allow_initial {labels : LabelCounters} {numbers : NumbersUsed}
    (allowed : labels.Allow numbers) :
    LabelCounters.initial.Allow numbers := by
  intro kind
  refine (allowed kind).trans ?_
  cases kind <;> exact Nat.sub_le_sub_left (Nat.zero_le _) _

/-- A source that is compiled is cut into tokens, and has a derivation. -/
theorem texts_of_accepted {file : SourceFile} {turn : Turn}
    (same : turn.source = file.content) (accepted : turn.isRefused = false) :
    (∃ tokens, file.tokens = .ok tokens) ∧
      ∃ text, file.derivationText = .ok text := by
  obtain ⟨program, answered⟩ := exists_program_of_not_refused accepted
  unfold Turn.answer compileSource at answered
  rw [same] at answered
  cases scanned : Token.scan file.content with
  | error cause =>
      rw [scanned] at answered
      cases answered
  | ok tokens =>
      rw [scanned] at answered
      obtain ⟨declared, rfl, admissible, allowed, _⟩ :=
        exists_program_of_compile answered
      have cut : file.tokens = .ok declared.tokens := by
        rw [SourceFile.tokens, scanned]
        rfl
      refine ⟨⟨_, cut⟩, Step.markupOfList declared.derivation.walk, ?_⟩
      unfold SourceFile.derivationText
      refine Except.bind_eq_ok_iff.mpr ⟨_, cut, ?_⟩
      rw [derivation_tokens admissible (allow_initial allowed)]
      rfl

/-- A source that fails at any stage is refused when it is compiled. -/
theorem exists_refused_of_hasRefusal (hasRefusal : HasRefusal files) :
    ∃ turn ∈ turnsOf files, turn.isRefused = true := by
  by_contra noneRefused
  have accepted : ∀ turn ∈ turnsOf files, turn.isRefused = false := by
    intro turn member
    by_contra isRefused
    exact noneRefused ⟨turn, member, by simpa using isRefused⟩
  rcases hasRefusal with ⟨file, member, cause, failed⟩ |
    ⟨file, member, cause, failed⟩ | someRefused
  · obtain ⟨turn, within, same⟩ := exists_turn member
    obtain ⟨⟨tokens, cut⟩, _⟩ := texts_of_accepted same (accepted turn within)
    rw [cut] at failed
    cases failed
  · obtain ⟨turn, within, same⟩ := exists_turn member
    obtain ⟨_, text, derived⟩ := texts_of_accepted same (accepted turn within)
    rw [derived] at failed
    cases failed
  · exact noneRefused someRefused

end Refused

/-! ## A whole build -/

section Builds

variable {wanted : Location → Prop}

/-- A step fails, and spares the files at some places. -/
def Refuses {α : Type} (wanted : Location → Prop) (step : Build α)
    (before : BuildState) : Prop :=
  ∃ cause after, step.run before = .error cause after ∧
    Disk.KeepsFiles wanted before.disk after.disk

namespace Refuses

variable {α β : Type} {before : BuildState}

theorem bind {step : Build α} (first : Refuses wanted step before)
    (next : α → Build β) : Refuses wanted (step >>= next) before := by
  obtain ⟨cause, after, run, keeps⟩ := first
  refine ⟨cause, after, ?_, keeps⟩
  rw [EStateM.run_bind, run]

theorem discard {step : Build α} (first : Refuses wanted step before) :
    Refuses wanted (Functor.discard step) before :=
  first.bind fun _ => Pure.pure ()

theorem bindSpared {step : Build α} {next : α → Build β}
    (first : Spares wanted step)
    (second : ∀ value between, Refuses wanted (next value) between) :
    Refuses wanted (step >>= next) before := by
  have spared := first before
  cases run : step.run before with
  | ok value between =>
      rw [run] at spared
      obtain ⟨cause, after, failed, keeps⟩ := second value between
      refine ⟨cause, after, ?_, spared.trans keeps⟩
      rw [EStateM.run_bind, run]
      exact failed
  | error cause after =>
      rw [run] at spared
      refine ⟨cause, after, ?_, spared⟩
      rw [EStateM.run_bind, run]

end Refuses

variable {paths : List String} {files : List SourceFile}

/-- A build with a source that is refused fails, and makes, changes and removes
no program. -/
theorem refuses_fromPaths (settings : Settings) {before : BuildState}
    (listed : SourceFile.readAll before.disk paths sourceExtension = .ok files)
    (hasRefusal : HasRefusal files) :
    Refuses IsProgramPlace (fromPaths settings paths) before := by
  have someRefused := exists_refused_of_hasRefusal hasRefusal
  have wellNamed := SourceFile.wellNamed_of_readAll listed
  have programs (directory : Option Path) (between : BuildState) :
      Refuses IsProgramPlace (programFiles settings files directory)
        between :=
    ⟨_, _, run_programFiles_of_refused someRefused, .refl _⟩
  have last (between : BuildState) : Refuses IsProgramPlace (do
      discard <| programFiles settings files (← outputDirectory settings))
      between :=
    .bindSpared (spares_outputDirectory settings) fun directory between =>
      (programs directory between).discard
  have got : (get : Build BuildState).run before = .ok before before := rfl
  cases files with
  | nil =>
      obtain ⟨turn, member, _⟩ := someRefused
      cases member
  | cons file others =>
      unfold fromPaths Refuses
      rw [EStateM.run_bind, got]
      simp only [listed]
      split
      · exact Refuses.bindSpared
          (.bind (spares_markupFiles wellNamed) fun _ =>
            (KeepsDisk.pure _).spares)
          fun _ between => last between
      · exact last before

end Builds

end Build

/-! ## A whole run -/

namespace Application

variable {request : Request} {requests : List Request} {state : RunState}
variable {paths : List String} {files : List SourceFile}

theorem perform_compile (settled : request.purpose = .compile)
    (given : request.parameters = some paths)
    (listed : SourceFile.readAll state.build.disk paths sourceExtension =
      .ok files)
    (hasRefusal : Build.HasRefusal files) :
    ∃ after, perform request state = .error () after ∧
      Disk.KeepsFiles IsProgramPlace state.build.disk after.build.disk := by
  obtain ⟨cause, after, failed, keeps⟩ :=
    Build.refuses_fromPaths state.settings listed hasRefusal
  refine ⟨RunState.tell { state with build := after } (.error cause.message),
    ?_, keeps⟩
  simp only [perform, settled, given, failed]

theorem perform_other (state : RunState)
    (other : request.purpose ≠ .compile) :
    (∃ after, perform request state = .ok () after ∧
      after.build.disk = state.build.disk) ∨
    ∃ after, perform request state = .error () after ∧
      after.build.disk = state.build.disk := by
  unfold perform
  split
  · exact .inl ⟨_, rfl, rfl⟩
  · exact .inl ⟨_, rfl, rfl⟩
  · next compiles => exact absurd compiles other
  · split
    · exact .inl ⟨_, rfl, rfl⟩
    · exact .inr ⟨_, rfl, rfl⟩

/-- Of several requests the first one to compile is the last one that is run,
if it is not left out because an earlier one fails. -/
theorem performAll_refuses (state : RunState)
    (asked : ∃ request ∈ requests, request.purpose = .compile)
    (given : ∀ request ∈ requests, request.purpose = .compile →
      request.parameters = some paths)
    (listed : SourceFile.readAll state.build.disk paths sourceExtension =
      .ok files)
    (hasRefusal : Build.HasRefusal files) :
    ∃ after, performAll requests state = .error () after ∧
      Disk.KeepsFiles IsProgramPlace state.build.disk after.build.disk := by
  induction requests generalizing state with
  | nil =>
      obtain ⟨request, member, _⟩ := asked
      cases member
  | cons first others inductionHypothesis =>
      rw [List.forall_mem_cons] at given
      by_cases compiles : first.purpose = .compile
      · obtain ⟨after, failed, keeps⟩ :=
          perform_compile compiles (given.1 compiles) listed hasRefusal
        exact ⟨after, by rw [performAll, failed], keeps⟩
      · rcases perform_other state compiles with
          ⟨between, done, same⟩ | ⟨after, failed, same⟩
        · obtain ⟨request, member, asksToCompile⟩ := asked
          have later : ∃ request ∈ others, request.purpose = .compile := by
            rcases List.mem_cons.mp member with rfl | member
            · exact absurd asksToCompile compiles
            · exact ⟨request, member, asksToCompile⟩
          rw [← same] at listed
          obtain ⟨after, failed, keeps⟩ :=
            inductionHypothesis between later given.2 listed
          rw [same] at keeps
          exact ⟨after, by rw [performAll, done]; exact failed, keeps⟩
        · refine ⟨after, by rw [performAll, failed], ?_⟩
          rw [same]
          exact .refl _

theorem mem_settingsFirst :
    request ∈ CommandLine.settingsFirst requests ↔ request ∈ requests := by
  rw [CommandLine.settingsFirst, List.mem_append, List.mem_filter,
    List.mem_filter]
  cases type : request.type <;> simp

/-- Every request to compile is run, and no request is run that was not
made. -/
theorem calls_of_read {arguments : List String} {line : CommandLine}
    (read : commandLine.read arguments = .ok line)
    (asked : ∃ request ∈ line.requests, request.purpose = .compile) :
    (∃ request ∈ line.calls.map Prod.snd, request.purpose = .compile) ∧
      ∀ request ∈ line.calls.map Prod.snd, request ∈ line.requests := by
  obtain ⟨requests, _, built⟩ := Except.bind_eq_ok_iff.mp read
  obtain rfl := Except.ok.inj built
  obtain ⟨request, member, compiles⟩ := asked
  have someRequest : requests.isEmpty = false :=
    List.isEmpty_eq_false_iff_exists_mem.mpr ⟨request, member⟩
  simp only [CommandLine.calls, someRequest]
  constructor
  · have answered : commandLine.rules.findIdx? (·.purpose == .compile) =
        some 5 := by
      decide
    refine ⟨request, List.mem_map.mpr ⟨(5, request), ?_, rfl⟩, compiles⟩
    refine List.mem_filterMap.mpr ⟨request, mem_settingsFirst.mpr member, ?_⟩
    rw [compiles, answered]
    rfl
  · intro called member
    obtain ⟨call, isCall, rfl⟩ := List.mem_map.mp member
    obtain ⟨made, within, built⟩ := List.mem_filterMap.mp isCall
    obtain ⟨place, _, rfl⟩ := Option.map_eq_some_iff.mp built
    exact mem_settingsFirst.mp within

/-- A run in which the sources of the only request to compile are refused
fails, and makes, changes and removes no program. -/
theorem run_refuses {arguments : List String} {disk : Disk}
    {line : CommandLine} (read : commandLine.read arguments = .ok line)
    (single : (line.requests.filter (·.purpose == .compile)).map
      Request.parameters = [some paths])
    (listed : SourceFile.readAll disk paths sourceExtension = .ok files)
    (hasRefusal : Build.HasRefusal files) :
    (run arguments disk).exitCode = failureCode ∧
      disk.KeepsFiles IsProgramPlace (run arguments disk).disk := by
  have given : ∀ request ∈ line.requests, request.purpose = .compile →
      request.parameters = some paths := by
    intro request member compiles
    have within : request.parameters ∈ [some paths] := by
      rw [← single]
      exact List.mem_map_of_mem
        (List.mem_filter.mpr ⟨member, by simp [compiles]⟩)
    exact List.mem_singleton.mp within
  have asked : ∃ request ∈ line.requests, request.purpose = .compile := by
    have within : some paths ∈
        (line.requests.filter (·.purpose == .compile)).map
          Request.parameters := by
      simp [single]
    obtain ⟨request, member, _⟩ := List.mem_map.mp within
    obtain ⟨member, compiles⟩ := List.mem_filter.mp member
    exact ⟨request, member, by simpa using compiles⟩
  obtain ⟨performed, made⟩ := calls_of_read read asked
  obtain ⟨after, failed, keeps⟩ :=
    performAll_refuses ⟨{}, ⟨disk, #[]⟩⟩ performed
      (fun request member => given request (made request member)) listed
      hasRefusal
  unfold run
  rw [read]
  simp only [failed]
  exact ⟨trivial, keeps⟩

end Application

/-! ## All or nothing -/

namespace Build

/-- Each source has one turn, in order. If one of them is refused, a step that
compiles them says how many are, and changes nothing. Otherwise it writes the
program of each turn for its source, in order: all of them, unless there is one
that cannot be written. A run that asks once for such a build, and for markup
or an output directory or whatever else, touches no program if a source of it
is refused at any stage. -/
theorem programs_all_or_nothing (settings : Settings) (files : List SourceFile)
    (directory : Option Path) (before : BuildState) :
    let turns := turnsOf files
    let told := before.notices ++ (transcript settings files).toArray
    let build := (programFiles settings files directory).run before
    turns.map Turn.source = files.map SourceFile.content ∧
    ((∃ turn ∈ turns, turn.isRefused = true) →
      build = .error (.refused (turns.countP Turn.isRefused) files.length)
        ⟨before.disk, told⟩) ∧
    ((∀ turn ∈ turns, turn.isRefused = false) →
      ∃ programs : List Program,
        turns.map Turn.answer = programs.map Except.ok ∧
        let texts := programs.map Program.text
        let outputs := texts.zip files
        (∀ written after,
          Delivers directory programExtension before.disk outputs written
              after →
            written.map Prod.snd = texts ∧
            build = .ok written ⟨after, told.push
              (.info (Rich.bold .green "Compilation successful!"))⟩) ∧
        (∀ after cause,
          BreaksOff directory programExtension before.disk outputs after
              cause →
            build = .error cause ⟨after, told⟩) ∧
        ((∃ written after,
          Delivers directory programExtension before.disk outputs written
            after) ∨
          ∃ after cause, BreaksOff directory programExtension before.disk
            outputs after cause)) ∧
    (∀ (arguments : List String) (disk : Disk) (line : CommandLine)
        (paths : List String) (sources : List SourceFile),
      Application.commandLine.read arguments = .ok line →
      (line.requests.filter (·.purpose == .compile)).map Request.parameters =
        [some paths] →
      SourceFile.readAll disk paths sourceExtension = .ok sources →
      HasRefusal sources →
      let run := Application.run arguments disk
      run.exitCode = Application.failureCode ∧
        disk.KeepsFiles IsProgramPlace run.disk) := by
  intro turns told build
  refine ⟨map_source_turnsOf files, run_programFiles_of_refused, ?_,
    fun _ _ _ _ _ => Application.run_refuses⟩
  intro noneRefused
  obtain ⟨programs, answered, compiled⟩ := exists_programs noneRefused
  have run : build = _ := run_programFiles_of_accepted compiled
  have enough : (programs.map Program.text).length ≤ files.length := by
    have sameLength := congrArg List.length answered
    rw [List.length_map, List.length_map, length_turnsOf] at sameLength
    rw [List.length_map, sameLength]
  refine ⟨programs, answered, ?_, ?_, delivers_or_breaksOff _ _ _ _⟩
  · intro written after delivers
    refine ⟨delivers.texts_eq.trans (List.map_fst_zip enough), ?_⟩
    rw [run, writeOutputs_eq_writeAll, run_writeAll_of_delivers delivers]
  · intro after cause breaksOff
    rw [run, writeOutputs_eq_writeAll, run_writeAll_of_breaksOff breaksOff]

/-- A disk with some source files, and with other entries in its working
directory. -/
def diskWith (files : List SourceFile) (others : List (String × DiskEntry)) :
    Disk where
  entries :=
    (files.map fun file =>
      (file.path.place [], .file (.text file.content))) ++
      others.map fun (name, entry) => ([name], entry)
  workingDirectory := []

/-- Of two sources the second one is no class: the first one is refused with
it, and its old program stays. -/
theorem programs_all_or_nothing_mixed :
    let files :=
      [sourceAt none "A" "class A { }", sourceAt none "B" "class B \x7b"]
    let disk := diskWith files [("A.vm", .file (.text "return\n"))]
    let arguments := ["-x", "-o", "out", "-c", "A.jack", "B.jack"]
    (∃ after,
      (programFiles {} files none).run ⟨disk, #[]⟩ =
        .error (.refused 1 2) after ∧ after.disk = disk) ∧
      (Application.run arguments disk).exitCode = 101 ∧
      (Application.run arguments disk).disk.fileAt? ["A.vm"] =
        some (.text "return\n") := by
  intro files disk arguments
  obtain ⟨_, refused, _, runs⟩ :=
    programs_all_or_nothing {} files none ⟨disk, #[]⟩
  have someRefused : ∃ turn ∈ turnsOf files, turn.isRefused = true := by
    decide +kernel
  have one : (turnsOf files).countP Turn.isRefused = 1 := by
    decide +kernel
  have listed : SourceFile.readAll disk ["A.jack", "B.jack"]
      sourceExtension = .ok files :=
    SourceFile.readAll_eq (by decide +kernel) (by decide +kernel)
      (by decide +kernel)
  have read : Application.commandLine.read arguments =
      .ok { Application.commandLine with
        requests := [⟨.setting, .xml, some []⟩,
          ⟨.setting, .output, some ["out"]⟩,
          ⟨.executable, .compile, some ["A.jack", "B.jack"]⟩] } := by
    decide +kernel
  obtain ⟨exit, keeps⟩ := runs arguments disk _ _ files read rfl listed
    (.inr (.inr someRefused))
  refine ⟨⟨_, one ▸ refused someRefused, rfl⟩, exit, ?_⟩
  exact keeps ["A.vm"] ⟨[], "A", rfl⟩

/-- A step in which every source is compiled may still leave some programs
unwritten: here the disk has a directory where the second one belongs. -/
theorem programs_cut_short :
    let files :=
      [sourceAt none "A" "class A { }", sourceAt none "B" "class B { }"]
    let disk := diskWith files [("B.vm", .directory)]
    (∀ turn ∈ turnsOf files, turn.isRefused = false) ∧
      ((programFiles {} files none).run ⟨disk, #[]⟩).Fails fun cause after =>
        cause = .write ⟨"B.vm", []⟩ .isADirectory ∧
          after.disk.fileAt? ["A.vm"] = some (.text "") ∧
          after.disk.fileAt? ["B.vm"] = none := by
  decide +kernel

end Build

end JackToVm
