import JackToVm.Build.Report
import JackToVm.Proofs.Running

/-!
# What a build tells

Steps that only tell notices end in one and the same way whatever state they
find. Compiling all sources is such a step: each source has its turn, and it is
refused if one of them is, with the number of those that are.
-/

namespace JackToVm.Build

/-! ## Steps that only tell -/

/-- A build that ends in a state. -/
def endIn {α : Type} (state : BuildState) :
    Except BuildError α → EStateM.Result BuildError BuildState α
  | .ok value => .ok value state
  | .error cause => .error cause state

/-- A build tells some notices and does nothing else, and always ends in the
same way. -/
def Tells {α : Type} (step : Build α) (outcome : Except BuildError α)
    (notices : List Notice) : Prop :=
  ∀ before, step.run before =
    endIn ⟨before.disk, before.notices ++ notices.toArray⟩ outcome

namespace Tells

variable {α β : Type} {value : α} {notices more : List Notice}

theorem pure (value : α) : Tells (Pure.pure value) (.ok value) [] := by
  intro before
  simp [endIn, EStateM.run, Pure.pure, EStateM.pure]

theorem throw (cause : BuildError) :
    Tells (MonadExcept.throw cause : Build α) (.error cause) [] := by
  intro before
  simp only [List.toArray, Array.append_empty]
  rfl

theorem tell (notice : Notice) :
    Tells (Build.tell notice) (.ok ()) [notice] := by
  intro before
  simp only [endIn, ← Array.push_eq_append]
  rfl

theorem bind {step : Build α} {next : α → Build β}
    {outcome : Except BuildError β} (first : Tells step (.ok value) notices)
    (second : Tells (next value) outcome more) :
    Tells (step >>= next) outcome (notices ++ more) := by
  intro before
  have later := second ⟨before.disk, before.notices ++ notices.toArray⟩
  rw [Array.append_assoc, List.append_toArray notices more] at later
  rw [EStateM.run_bind, first before]
  exact later

/-- A step that goes on behind a notice. -/
theorem cons {notice : Notice} {rest : Build α}
    {outcome : Except BuildError α} (told : Tells rest outcome notices) :
    Tells (Build.tell notice >>= fun _ => rest) outcome
      (notice :: notices) :=
  .bind (.tell notice) told

theorem bindSilent {step : Build α} {next : α → Build β}
    {outcome : Except BuildError β} (first : Tells step (.ok value) notices)
    (second : Tells (next value) outcome []) :
    Tells (step >>= next) outcome notices := by
  rw [← List.append_nil notices]
  exact first.bind second

theorem bindError {step : Build α} {cause : BuildError}
    (failed : Tells step (.error cause) notices) (next : α → Build β) :
    Tells (step >>= next) (.error cause) notices := by
  intro before
  rw [EStateM.run_bind, failed before]
  rfl

theorem forM {step : α → Build Unit} {notice : α → Notice}
    (each : ∀ item, Tells (step item) (.ok ()) [notice item])
    (items : List α) :
    Tells (items.forM step) (.ok ()) (items.map notice) := by
  induction items with
  | nil => exact .pure ()
  | cons first others inductionHypothesis =>
      exact .bind (each first) inductionHypothesis

/-- A step that succeeds ends in the way it always does. -/
theorem outcome_eq {step : Build α} {outcome : Except BuildError α}
    (told : Tells step outcome notices) {before after : BuildState}
    {result : α} (run : step.run before = .ok result after) :
    outcome = .ok result := by
  rw [told before] at run
  cases outcome with
  | ok value =>
      obtain ⟨rfl, _⟩ := EStateM.Result.ok.inj run
      rfl
  | error cause => cases run

/-- A loop whose first step goes on. -/
theorem forIn_cons {ρ : Type} {body : α → ρ → Build (ForInStep ρ)}
    {item : α} {items : List α} {start next : ρ}
    {outcome : Except BuildError ρ}
    (first : Tells (body item start) (.ok (.yield next)) notices)
    (others : Tells (forIn items next body) outcome more) :
    Tells (forIn (item :: items) start body) outcome (notices ++ more) := by
  rw [List.forIn_cons]
  exact .bind first others

end Tells

/-! ## One source -/

theorem tells_tellSymbols (program : Program) :
    Tells (tellSymbols program) (.ok ()) (symbolNotices program) := by
  refine .cons (.cons ?_)
  exact .forM (fun _ => .tell _) program.subroutines

theorem tells_program {α : Type} (settings : Settings) (program : Program)
    (result : α) :
    Tells (do
        info ("Compiled class `" ++ program.className ++ "`: " ++
          toString program.commands.length ++ " VM commands")
        if settings.isEnabled .printSymbols then
          tellSymbols program
        return result)
      (.ok result) (programNotices settings program) := by
  refine .cons ?_
  split
  · exact (tells_tellSymbols program).bindSilent (.pure _)
  · exact .pure _

/-- A source file is compiled as in a turn, and the counters are handed on in
every case. -/
theorem tells_compileFile (settings : Settings) (file : SourceFile)
    (labels : LabelCounters) :
    let turn : Turn := ⟨file.content, labels⟩
    Tells (compileFile settings file labels)
      (.ok (answerFor file turn, turn.behind))
      (progressNotices settings file turn) := by
  intro turn
  have sameAnswer : turn.answer = (compileSource file.content labels).1 := rfl
  have sameBehind : turn.behind = (compileSource file.content labels).2 := rfl
  have sameSource : turn.source = file.content := rfl
  unfold compileFile progressNotices answerFor
  refine .cons ?_
  rw [sameAnswer, sameBehind, sameSource, compileSource, tokenNotices]
  cases scanned : Token.scan file.content with
  | error cause =>
      have refused : file.tokens = .error ⟨file.name, .lexical cause⟩ := by
        rw [SourceFile.tokens, scanned]
        rfl
      simp only [refused]
      exact .pure _
  | ok tokens =>
      have cut : file.tokens = .ok tokens := by
        rw [SourceFile.tokens, scanned]
        rfl
      simp only [cut]
      obtain ⟨answer, behind⟩ := compile tokens labels
      cases answer with
      | error cause =>
          split
          · exact .cons (.cons (.pure _))
          · exact .pure _
      | ok program =>
          split
          · exact .cons (.cons (tells_program settings program _))
          · exact tells_program settings program _

/-! ## All sources -/

section Sources

variable {α β : Type}

/-- The sources that a step goes through, each with the state that it finds. -/
def visits (behind : SourceFile → β → β) :
    List SourceFile → β → List (SourceFile × β)
  | [], _ => []
  | file :: files, state =>
      (file, state) :: visits behind files (behind file state)

theorem length_visits (behind : SourceFile → β → β)
    (files : List SourceFile) (state : β) :
    (visits behind files state).length = files.length := by
  induction files generalizing state with
  | nil => rfl
  | cons file files inductionHypothesis =>
      exact congrArg (· + 1) (inductionHypothesis (behind file state))

/-- The results among some answers. -/
def results (answers : List (Except SourceError α)) : List α :=
  answers.filterMap Except.toOption

/-- The number of refusals among some answers. -/
def failures (answers : List (Except SourceError α)) : Nat :=
  answers.countP (!·.isOk)

/-- What comes of the answers to all sources: the results, or the number of
those that are refused. -/
def collect (answers : List (Except SourceError α)) :
    Except BuildError (List α) :=
  if failures answers > 0 then
    .error (.refused (failures answers) answers.length)
  else
    .ok (results answers)

section Answers

variable {answers : List (Except SourceError α)} {cause : SourceError}

@[simp]
theorem results_nil : results ([] : List (Except SourceError α)) = [] :=
  rfl

@[simp]
theorem failures_nil : failures ([] : List (Except SourceError α)) = 0 :=
  rfl

@[simp]
theorem results_ok (result : α) :
    results (.ok result :: answers) = result :: results answers :=
  rfl

@[simp]
theorem results_error :
    results (.error cause :: answers) = results answers :=
  rfl

@[simp]
theorem failures_ok (result : α) :
    failures (.ok result :: answers) = failures answers :=
  List.countP_cons_of_neg (by simp [Except.isOk, Except.toBool])

@[simp]
theorem failures_error :
    failures (.error cause :: answers) = failures answers + 1 :=
  List.countP_cons_of_pos (by simp [Except.isOk, Except.toBool])

theorem map_ok_results (accepted : failures answers = 0) :
    (results answers).map Except.ok = answers := by
  induction answers with
  | nil => rfl
  | cons answer others inductionHypothesis =>
      cases answer with
      | ok result =>
          rw [failures_ok] at accepted
          rw [results_ok, List.map_cons, inductionHypothesis accepted]
      | error cause =>
          rw [failures_error] at accepted
          cases accepted

/-- Answers that come to something come to a result for each. -/
theorem eq_map_ok_of_collect {items : List α}
    (collected : collect answers = .ok items) :
    answers = items.map Except.ok := by
  unfold collect at collected
  by_cases someRefused : failures answers > 0
  · rw [if_pos someRefused] at collected
    cases collected
  · rw [if_neg someRefused] at collected
    obtain rfl := Except.ok.inj collected
    exact (map_ok_results (Nat.eq_zero_of_not_pos someRefused)).symm

theorem length_of_collect {items : List α}
    (collected : collect answers = .ok items) :
    items.length = answers.length := by
  rw [eq_map_ok_of_collect collected, List.length_map]

theorem collect_map_ok (items : List α) :
    collect (items.map Except.ok) = .ok items := by
  have accepted : failures (items.map Except.ok) = 0 ∧
      results (items.map Except.ok) = items := by
    induction items with
    | nil => exact ⟨rfl, rfl⟩
    | cons item items inductionHypothesis => simpa using inductionHypothesis
  rw [collect, accepted.1, accepted.2]
  rfl

end Answers

variable {answer : SourceFile → β → Except SourceError α}
variable {behind : SourceFile → β → β}
variable {notices : SourceFile → β → List Notice}

/-- The loop over all sources: a result is put behind those that are found
already, and a refusal is told and counted. -/
theorem tells_loop
    {body : SourceFile → β × Array α × Nat →
      Build (ForInStep (β × Array α × Nat))}
    (each : ∀ file state found refused,
      Tells (body file (state, found, refused))
        (.ok (.yield (behind file state,
          match answer file state with
          | .ok result => (found.push result, refused)
          | .error _ => (found, refused + 1))))
        (notices file state ++ refusalNotices (answer file state)))
    (files : List SourceFile) (state : β) (found : Array α)
    (refused : Nat) :
    let visited := visits behind files state
    let answers := visited.map fun (file, state) => answer file state
    Tells (forIn files (state, found, refused) body)
      (.ok (files.foldl (fun state file => behind file state) state,
        found ++ (results answers).toArray, refused + failures answers))
      (visited.flatMap fun (file, state) =>
        notices file state ++ refusalNotices (answer file state)) := by
  -- The rounds behind the first one add to whatever it has found and counted.
  induction files generalizing state found refused with
  | nil => simpa [visits] using Tells.pure _
  | cons file files inductionHypothesis =>
      have first := each file state found refused
      cases answered : answer file state with
      | ok result =>
          rw [answered] at first
          have others := inductionHypothesis (behind file state)
            (found.push result) refused
          simpa [visits, answered] using first.forIn_cons others
      | error cause =>
          rw [answered] at first
          have others := inductionHypothesis (behind file state)
            found (refused + 1)
          simpa [visits, answered, Nat.add_assoc, Nat.add_comm 1] using
            first.forIn_cons others

/-- A step over all sources goes through every one of them in order, whatever
became of those before, and tells and counts those that are refused. -/
theorem tells_forSources
    {step : SourceFile → β → Build (Except SourceError α × β)}
    (each : ∀ file state, Tells (step file state)
      (.ok (answer file state, behind file state)) (notices file state))
    (files : List SourceFile) (initial : β) :
    let visited := visits behind files initial
    Tells (forSources files initial step)
      (collect (visited.map fun (file, state) => answer file state))
      (visited.flatMap fun (file, state) =>
        notices file state ++ refusalNotices (answer file state)) := by
  intro visited
  have sameLength : visited.length = files.length :=
    length_visits behind files initial
  unfold forSources
  refine .bindSilent (tells_loop ?_ files initial #[] 0) ?_
  · intro file state found refused
    refine .bind (each file state) ?_
    cases answer file state with
    | ok result => exact .pure _
    | error cause => exact .cons (.pure _)
  · dsimp only
    rw [Array.empty_append, Nat.zero_add, collect, List.length_map,
      sameLength]
    split
    · exact (Tells.throw _).bindError _
    · exact .pure _

/-- A step that treats each source alone answers each of them in order. -/
theorem tells_forEachSource (files : List SourceFile)
    (step : SourceFile → Except SourceError α) :
    Tells (forEachSource files step) (collect (files.map step))
      (files.flatMap fun file => refusalNotices (step file)) := by
  have visited : visits (fun _ () => ()) files () =
      files.map fun file => (file, ()) := by
    induction files with
    | nil => rfl
    | cons file files inductionHypothesis =>
        exact congrArg (_ :: ·) inductionHypothesis
  have each : ∀ file (state : Unit),
      Tells (return (step file, ())) (.ok (step file, ())) [] :=
    fun file _ => .pure _
  have all := tells_forSources each files ()
  simp only [visited, List.map_map, List.flatMap_map] at all
  exact all

end Sources

/-! ## Turns -/

theorem map_source_ofSources (sources : List String)
    (labels : LabelCounters) :
    (Turn.ofSources sources labels).map Turn.source = sources := by
  induction sources generalizing labels with
  | nil => rfl
  | cons source sources inductionHypothesis =>
      exact congrArg (source :: ·) (inductionHypothesis _)

theorem map_source_turnsOf (files : List SourceFile) :
    (turnsOf files).map Turn.source = files.map SourceFile.content :=
  map_source_ofSources _ _

theorem length_turnsOf (files : List SourceFile) :
    (turnsOf files).length = files.length := by
  have sameLength := congrArg List.length (map_source_turnsOf files)
  rwa [List.length_map, List.length_map] at sameLength

/-- Each source has the turn that goes on with the counters it finds. -/
theorem visits_eq_zip (files : List SourceFile) (labels : LabelCounters) :
    (visits (fun file labels => Turn.behind ⟨file.content, labels⟩) files
        labels).map (fun (file, labels) => (file, ⟨file.content, labels⟩)) =
      files.zip (Turn.ofSources (files.map SourceFile.content) labels) := by
  induction files generalizing labels with
  | nil => rfl
  | cons file files inductionHypothesis =>
      exact congrArg (_ :: ·) (inductionHypothesis _)

/-- The answers to all sources, each with the name of its file. -/
def answersFor (files : List SourceFile) :
    List (Except SourceError Program) :=
  (files.zip (turnsOf files)).map fun (file, turn) => answerFor file turn

/-- To compile all sources is to give each of them its turn. -/
theorem tells_compileAll (settings : Settings) (files : List SourceFile) :
    Tells (forSources files LabelCounters.initial (compileFile settings))
      (collect (answersFor files))
      ((files.zip (turnsOf files)).flatMap fun (file, turn) =>
        turnNotices settings file turn) := by
  have all := tells_forSources (tells_compileFile settings) files
    LabelCounters.initial
  rw [answersFor, turnsOf, ← visits_eq_zip, List.map_map, List.flatMap_map]
  exact all

theorem isOk_answerFor (file : SourceFile) (turn : Turn) :
    (answerFor file turn).isOk = !turn.isRefused := by
  unfold answerFor Turn.isRefused
  cases turn.answer <;> rfl

theorem map_snd_zip_turnsOf (files : List SourceFile) :
    (files.zip (turnsOf files)).map Prod.snd = turnsOf files :=
  List.map_snd_zip (Nat.le_of_eq (length_turnsOf files))

theorem length_answersFor (files : List SourceFile) :
    (answersFor files).length = files.length := by
  rw [answersFor, List.length_map, List.length_zip, length_turnsOf,
    Nat.min_self]

theorem failures_answersFor (files : List SourceFile) :
    failures (answersFor files) = (turnsOf files).countP Turn.isRefused := by
  rw [failures, answersFor, List.countP_map, ← map_snd_zip_turnsOf files,
    List.countP_map, map_snd_zip_turnsOf]
  refine List.countP_congr ?_
  rintro ⟨file, turn⟩ _
  simp [isOk_answerFor]

section Collected

variable {files : List SourceFile}

theorem collect_of_refused
    (someRefused : ∃ turn ∈ turnsOf files, turn.isRefused = true) :
    collect (answersFor files) =
      .error (.refused ((turnsOf files).countP Turn.isRefused)
        files.length) := by
  have positive : 0 < (turnsOf files).countP Turn.isRefused :=
    List.countP_pos_iff.mpr someRefused
  rw [collect, failures_answersFor, if_pos positive, length_answersFor]

theorem exists_program_of_not_refused {turn : Turn}
    (accepted : turn.isRefused = false) :
    ∃ program, turn.answer = .ok program := by
  unfold Turn.isRefused at accepted
  cases answered : turn.answer with
  | ok program => exact ⟨program, rfl⟩
  | error cause =>
      rw [answered] at accepted
      cases accepted

theorem exists_programs_of_not_refused {turns : List Turn}
    (noneRefused : ∀ turn ∈ turns, turn.isRefused = false) :
    ∃ programs : List Program,
      turns.map Turn.answer = programs.map Except.ok := by
  induction turns with
  | nil => exact ⟨[], rfl⟩
  | cons turn turns inductionHypothesis =>
      rw [List.forall_mem_cons] at noneRefused
      obtain ⟨program, answered⟩ :=
        exists_program_of_not_refused noneRefused.1
      obtain ⟨programs, others⟩ := inductionHypothesis noneRefused.2
      exact ⟨program :: programs, by simp [answered, others]⟩

/-- If no source is refused, there is a program for each. -/
theorem exists_programs
    (noneRefused : ∀ turn ∈ turnsOf files, turn.isRefused = false) :
    ∃ programs, (turnsOf files).map Turn.answer = programs.map Except.ok ∧
      collect (answersFor files) = .ok programs := by
  obtain ⟨programs, answered⟩ := exists_programs_of_not_refused noneRefused
  have sameAnswers : answersFor files = programs.map Except.ok := by
    -- The name of a file is part of refusals only, and there are none.
    have unnamed : ∀ pair ∈ files.zip (turnsOf files),
        answerFor pair.1 pair.2 =
          pair.2.answer.mapError fun cause => ⟨"", cause⟩ := by
      intro pair member
      obtain ⟨program, accepted⟩ := exists_program_of_not_refused
        (noneRefused pair.2 (List.of_mem_zip member).2)
      rw [answerFor, accepted]
      rfl
    calc answersFor files
        = ((files.zip (turnsOf files)).map Prod.snd).map
            fun turn => turn.answer.mapError fun cause => ⟨"", cause⟩ := by
          rw [List.map_map]
          exact List.map_congr_left unnamed
      _ = ((turnsOf files).map Turn.answer).map
            fun answer => answer.mapError fun cause => ⟨"", cause⟩ := by
          rw [map_snd_zip_turnsOf, List.map_map]
          rfl
      _ = programs.map Except.ok := by
          rw [answered, List.map_map]
          rfl
  exact ⟨programs, answered, sameAnswers ▸ collect_map_ok programs⟩

end Collected

end JackToVm.Build
