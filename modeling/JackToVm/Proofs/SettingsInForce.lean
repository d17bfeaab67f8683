import JackToVm.Application
import JackToVm.Proofs.Calls
import JackToVm.Proofs.StoredSettings

/-!
# Settings that a run finds

A run stores the settings first, so whatever it then does finds those in force
that the last requests ask for, in whatever order the flags are given. A debug
word that is not known ends the run before it does anything.
-/

namespace JackToVm.Application

open CommandLine (occurrences KnowsWords)

variable {request : Request} {requests runs before : List Request}
variable {state after : RunState} {arguments : List String}
variable {line : CommandLine}

/-- Whether a request with a purpose stores something and does nothing else. -/
def IsStored (purpose : Purpose) : Prop :=
  purpose ∈ [Purpose.debug, .output, .xml]

theorem store_of_perform (run : perform request state = .ok () after) :
    state.settings.store request.purpose (request.parameters.getD []) =
      .ok after.settings := by
  unfold perform at run
  split at run
  · next isFor =>
    obtain ⟨_, rfl⟩ := EStateM.Result.ok.inj run
    rw [isFor]
    rfl
  · next isFor =>
    obtain ⟨_, rfl⟩ := EStateM.Result.ok.inj run
    rw [isFor]
    rfl
  · next isFor =>
    rw [isFor]
    split at run
    · cases run
    · split at run
      · obtain ⟨_, rfl⟩ := EStateM.Result.ok.inj run
        rfl
      · cases run
  · split at run
    · next stored =>
      obtain ⟨_, rfl⟩ := EStateM.Result.ok.inj run
      exact stored
    · cases run

/-- Behind a run that succeeds so far, its requests are in force, whatever else
they did. -/
theorem inForce_of_performAll {done : List Request}
    (inForce : state.settings.InForce done)
    (run : performAll requests state = .ok () after) :
    after.settings.InForce (done ++ requests) := by
  induction requests generalizing done state with
  | nil =>
      obtain ⟨_, rfl⟩ := EStateM.Result.ok.inj run
      rwa [List.append_nil]
  | cons request others inductionHypothesis =>
      rw [performAll] at run
      split at run
      · next between first =>
        have next := inForce.concat (store_of_perform first)
        rw [List.append_cons]
        exact inductionHypothesis next run
      · cases run

/-- A request that stores something changes the settings alone; it fails
exactly if it has a debug word that is not known. -/
theorem perform_stored (isStored : IsStored request.purpose)
    (state : RunState) :
    perform request state =
      match state.settings.store request.purpose
          (request.parameters.getD []) with
      | .ok settings => .ok () { state with settings := settings }
      | .error unknown =>
          .error () (state.tell (.fault (Rich.plain unknown.message))) := by
  unfold perform
  split
  · next isFor => simp [isFor, IsStored] at isStored
  · next isFor => simp [isFor, IsStored] at isStored
  · next isFor => simp [isFor, IsStored] at isStored
  · rfl

theorem store_eq_error {settings : Settings} {purpose : Purpose}
    {words : List String} {unknown : UnknownWord}
    (refused : settings.store purpose words = .error unknown) :
    purpose = .debug ∧ debugFlag words = .error unknown := by
  cases purpose with
  | compile | version | help | output | xml => cases refused
  | debug =>
      rw [Settings.store_debug] at refused
      cases run : debugFlag words with
      | ok flag =>
          rw [run] at refused
          cases refused
      | error cause =>
          rw [run] at refused
          exact ⟨rfl, congrArg Except.error (Except.error.inj refused)⟩

theorem knowsWords_cons :
    KnowsWords (request :: requests) ↔
      (request.purpose = .debug →
        ∀ word ∈ request.parameters.getD [], IsDebugWord word) ∧
      KnowsWords requests := by
  by_cases isDebug : request.purpose = .debug <;>
    simp [KnowsWords, occurrences, isDebug]

/-- Requests that store something are all stored if the debug words among them
are known. Otherwise the first word that is not known ends the run. -/
theorem performAll_stored
    (stored : ∀ request ∈ requests, IsStored request.purpose)
    (state : RunState) :
    (KnowsWords requests ∧ ∃ settings,
      performAll requests state = .ok () { state with settings := settings }) ∨
    (¬ KnowsWords requests ∧ ∃ settings word, ¬ IsDebugWord word ∧
      performAll requests state =
        .error () (RunState.tell { state with settings := settings }
          (.fault (Rich.plain (UnknownWord.message ⟨word⟩))))) := by
  induction requests generalizing state with
  | nil => exact .inl ⟨by simp [KnowsWords, occurrences], state.settings, rfl⟩
  | cons request others inductionHypothesis =>
      rw [List.forall_mem_cons] at stored
      rw [knowsWords_cons, performAll, perform_stored stored.1]
      cases store : state.settings.store request.purpose
          (request.parameters.getD []) with
      | ok settings =>
          have known : request.purpose = .debug →
              ∀ word ∈ request.parameters.getD [], IsDebugWord word := by
            intro isDebug
            rw [isDebug, Settings.store_debug] at store
            cases run : debugFlag (request.parameters.getD []) with
            | ok flag => exact isDebugWord_of_foldlM run
            | error unknown =>
                rw [run] at store
                cases store
          rcases inductionHypothesis stored.2
              { state with settings := settings } with
            ⟨others, after, run⟩ | ⟨others, after, word, unknown, run⟩
          · exact .inl ⟨⟨known, others⟩, after, run⟩
          · exact .inr ⟨fun both => others both.2, after, word, unknown, run⟩
      | error unknown =>
          obtain ⟨isDebug, refused⟩ := store_eq_error store
          refine .inr ⟨fun both => ?_, state.settings, unknown.word,
            exists_of_foldlM_eq_error refused, rfl⟩
          obtain ⟨flag, run⟩ := exists_foldlM_eq_ok (both.1 isDebug) 0
          rw [← debugFlag_eq_foldlM, refused] at run
          cases run

theorem performAll_append (first second : List Request) (state : RunState) :
    performAll (first ++ second) state =
      match performAll first state with
      | .ok () between => performAll second between
      | .error () after => .error () after := by
  induction first generalizing state with
  | nil => rfl
  | cons request others inductionHypothesis =>
      rw [List.cons_append, performAll, performAll]
      cases perform request state with
      | ok _ between => exact inductionHypothesis between
      | error _ after => rfl

/-! ## The requests of a command line -/

theorem type_of_rules :
    ∀ rule ∈ rules, rule.type = .setting ↔ IsStored rule.purpose := by
  unfold IsStored
  decide

/-- Exactly the requests of the type `setting` are stored. -/
theorem type_of_readRequests
    (read : CommandLine.readRequests rules arguments = .ok requests) :
    ∀ request ∈ requests,
      request.type = .setting ↔ IsStored request.purpose := by
  obtain ⟨produced, produces, rfl⟩ :=
    CommandLine.readRequests_eq_ok_iff_produces.mp read
  intro request member
  obtain ⟨made, isMade, rfl⟩ := List.mem_map.mp member
  obtain ⟨isRule, type, purpose⟩ := produces.request_eq made isMade
  rw [type, purpose]
  exact type_of_rules made.1 isRule

theorem readRequests_of_read (read : commandLine.read arguments = .ok line) :
    CommandLine.readRequests rules arguments = .ok line.requests := by
  obtain ⟨requests, readRequests, built⟩ := Except.bind_eq_ok_iff.mp read
  obtain rfl := Except.ok.inj built
  exact readRequests

/-- What is run are the requests that are stored, and behind them those that run
something. -/
theorem exists_calls (read : commandLine.read arguments = .ok line) :
    ∃ runs, line.calls.map Prod.snd =
        line.requests.filter (·.type == .setting) ++ runs ∧
      ∀ request ∈ runs, request.type = .executable ∧
        ¬ IsStored request.purpose := by
  obtain ⟨requests, readRequests, built⟩ := Except.bind_eq_ok_iff.mp read
  obtain rfl := Except.ok.inj built
  by_cases none : requests = []
  · subst none
    refine ⟨[⟨.executable, .help, none⟩], rfl, ?_⟩
    simp [IsStored]
  · refine ⟨requests.filter (·.type == .executable), ?_, ?_⟩
    · have answered : ∀ purpose : Purpose, ∃ place,
          rules.findIdx? (·.purpose == purpose) = some place := by
        intro purpose
        cases purpose <;> exact ⟨_, rfl⟩
      rw [CommandLine.calls_eq_filterMap none, List.map_filterMap]
      refine (List.filterMap_congr ?_).trans List.filterMap_some
      intro request _
      obtain ⟨place, found⟩ := answered request.purpose
      change (((rules.findIdx? (·.purpose == request.purpose)).map _).map _) = _
      rw [found]
      rfl
    · intro request member
      obtain ⟨isRequest, runs⟩ := List.mem_filter.mp member
      rw [beq_iff_eq] at runs
      refine ⟨runs, fun isStored => ?_⟩
      have type := (type_of_readRequests readRequests request isRequest).mpr
        isStored
      rw [runs] at type
      cases type

/-- The stored requests of a command line are its occurrences of stored
purposes, also with requests behind them that run something. -/
theorem occurrences_calls {purpose : Purpose} (isStored : IsStored purpose)
    (types : ∀ request ∈ requests,
      request.type = .setting ↔ IsStored request.purpose)
    (others : ∀ request ∈ runs, ¬ IsStored request.purpose) :
    occurrences (requests.filter (·.type == .setting) ++ runs) purpose =
      occurrences requests purpose := by
  have none : runs.filter (·.purpose == purpose) = [] := by
    rw [List.filter_eq_nil_iff]
    intro request member same
    rw [beq_iff_eq] at same
    exact others request member (same ▸ isStored)
  have all : (requests.filter (·.type == .setting)).filter
      (·.purpose == purpose) = requests.filter (·.purpose == purpose) := by
    rw [List.filter_filter]
    apply List.filter_congr
    intro request member
    rw [Bool.eq_iff_iff, Bool.and_eq_true, beq_iff_eq, beq_iff_eq,
      types request member]
    exact ⟨And.left, fun same => ⟨same, same ▸ isStored⟩⟩
  rw [occurrences, List.filter_append, all, none, List.append_nil]
  rfl

/-- Before a request that runs something stand all requests that are stored, and
others that run something. -/
theorem exists_runs_before {stored behind : List Request}
    (settings : ∀ request ∈ stored, request.type = .setting)
    (executes : request.type = .executable)
    (cut : stored ++ runs = before ++ request :: behind) :
    ∃ earlier, before = stored ++ earlier ∧ ∀ one ∈ earlier, one ∈ runs := by
  rcases List.append_eq_append_iff.mp cut with
    ⟨earlier, rfl, rest⟩ | ⟨rest, rfl, same⟩
  · exact ⟨earlier, rfl, fun one member =>
      rest ▸ List.mem_append_left _ member⟩
  · cases rest with
    | nil => exact ⟨[], by simp⟩
    | cons first others =>
        obtain ⟨rfl, _⟩ := List.cons.inj same
        have setting := settings request
          (List.mem_append_right before List.mem_cons_self)
        rw [executes] at setting
        cases setting

section Calls

variable {stored behind : List Request}
variable (types : ∀ request ∈ requests,
  request.type = .setting ↔ IsStored request.purpose)
variable (others : ∀ request ∈ runs, request.type = .executable ∧
  ¬ IsStored request.purpose)
include types

theorem isStored_of_mem_filter :
    ∀ request ∈ requests.filter (·.type == .setting),
      IsStored request.purpose := by
  intro request member
  obtain ⟨isRequest, setting⟩ := List.mem_filter.mp member
  exact (types request isRequest).mp (beq_iff_eq.mp setting)

theorem knowsWords_filter_iff :
    KnowsWords (requests.filter (·.type == .setting)) ↔
      KnowsWords requests := by
  have isStored : IsStored .debug := List.mem_cons_self
  have none : ∀ request ∈ ([] : List Request), ¬ IsStored request.purpose :=
    by simp
  have same := occurrences_calls isStored types none
  rw [List.append_nil] at same
  rw [KnowsWords, KnowsWords, same]

include others

theorem inForce_of_cut (executes : request.type = .executable)
    (cut : requests.filter (·.type == .setting) ++ runs =
      before ++ request :: behind)
    (fresh : state.settings = {})
    (run : performAll before state = .ok () after) :
    after.settings.InForce requests := by
  have inForce := inForce_of_performAll
    (fresh ▸ Settings.inForce_nil) run
  obtain ⟨earlier, rfl, fromRuns⟩ := exists_runs_before
    (fun one member => beq_iff_eq.mp (List.mem_filter.mp member).2)
    executes cut
  apply inForce.congr
  intro purpose isStored
  exact occurrences_calls isStored types fun one member =>
    (others one (fromRuns one member)).2

theorem exists_performAll_of_cut (known : KnowsWords requests)
    (executes : request.type = .executable)
    (cut : requests.filter (·.type == .setting) ++ runs =
      before ++ request :: behind)
    (first : ∀ earlier ∈ before, earlier.type = .setting)
    (state : RunState) : ∃ after, performAll before state = .ok () after := by
  obtain ⟨earlier, rfl, fromRuns⟩ := exists_runs_before
    (fun one member => beq_iff_eq.mp (List.mem_filter.mp member).2)
    executes cut
  have none : earlier = [] := by
    rw [List.eq_nil_iff_forall_not_mem]
    intro one member
    have setting := first one (List.mem_append_right _ member)
    rw [(others one (fromRuns one member)).1] at setting
    cases setting
  rw [none, List.append_nil]
  rcases performAll_stored (isStored_of_mem_filter types) state with
    ⟨_, settings, run⟩ | ⟨unknown, _⟩
  · exact ⟨_, run⟩
  · exact absurd ((knowsWords_filter_iff types).mpr known) unknown

end Calls

/-- Whatever runs finds the settings in force that the command line asks for,
wherever it stands among the flags; and the first thing to run is reached. A
debug word that is not known ends the run before, with nothing but the report of
such a word. -/
theorem settings_in_force (read : commandLine.read arguments = .ok line)
    (disk : Disk) :
    let start : RunState := ⟨{}, ⟨disk, #[]⟩⟩
    (∃ groups, CommandLine.Splits rules arguments groups) ∧
    (∀ groups, CommandLine.Splits rules arguments groups →
      line.requests = groups.flatMap CommandLine.Group.requests) ∧
    (KnowsWords line.requests →
      ∀ before request behind,
        line.calls.map Prod.snd = before ++ request :: behind →
        request.type = .executable →
        ((∀ earlier ∈ before, earlier.type = .setting) →
          ∃ state, performAll before start = .ok () state) ∧
        ∀ state, performAll before start = .ok () state →
          state.settings.InForce line.requests) ∧
    (¬ KnowsWords line.requests →
      (∀ before request behind,
        line.calls.map Prod.snd = before ++ request :: behind →
        request.type = .executable →
        ∃ state, performAll before start = .error () state) ∧
      ∃ word, ¬ IsDebugWord word ∧
        run arguments disk =
          ⟨failureCode,
            #[.fault (Rich.plain (UnknownWord.message ⟨word⟩))], disk⟩) := by
  intro start
  have readRequests := readRequests_of_read read
  obtain ⟨runs, calls, others⟩ := exists_calls read
  have types := type_of_readRequests readRequests
  refine ⟨?_, ?_, ?_, ?_⟩
  · obtain ⟨groups, splits, _⟩ :=
      CommandLine.readRequests_eq_ok_iff.mp readRequests
    exact ⟨groups, splits⟩
  · intro groups splits
    have again :=
      CommandLine.readRequests_eq_ok_iff.mpr ⟨groups, splits, rfl⟩
    rw [readRequests] at again
    exact Except.ok.inj again
  · intro known before request behind cut executes
    rw [calls] at cut
    exact ⟨fun first =>
        exists_performAll_of_cut types others known executes cut first start,
      fun state run => inForce_of_cut types others executes cut rfl run⟩
  · intro unknown
    rcases performAll_stored (isStored_of_mem_filter types) start with
      ⟨known, _⟩ | ⟨_, settings, word, isUnknown, failed⟩
    · exact absurd ((knowsWords_filter_iff types).mp known) unknown
    refine ⟨?_, word, isUnknown, ?_⟩
    · intro before request behind cut executes
      rw [calls] at cut
      obtain ⟨earlier, rfl, _⟩ := exists_runs_before
        (fun one member => beq_iff_eq.mp (List.mem_filter.mp member).2)
        executes cut
      exact ⟨_, by rw [performAll_append, failed]⟩
    · unfold run
      rw [read]
      simp only [calls]
      rw [performAll_append, failed]
      rfl

/-- Version and build stand before the settings and between them; the last debug
flag has no word, and the last directory for markup counts. A word that is not
known lets nothing run. -/
theorem settings_in_force_repeated :
    let arguments :=
      ["-v", "-d", "tokens", "-x", "first", "-c", "A.jack", "-xd", "second"]
    let disk : Disk := ⟨[], []⟩
    let settings : List Request :=
      [⟨.setting, .debug, some ["tokens"]⟩, ⟨.setting, .xml, some ["first"]⟩,
        ⟨.setting, .xml, some ["second"]⟩, ⟨.setting, .debug, some []⟩]
    (∃ line, commandLine.read arguments = .ok line ∧
      line.calls.map Prod.snd = settings ++
        [⟨.executable, .version, some []⟩,
          ⟨.executable, .compile, some ["A.jack"]⟩] ∧
      ∃ state, performAll settings ⟨{}, ⟨disk, #[]⟩⟩ = .ok () state ∧
        state.settings.InForce line.requests ∧
        state.settings.parameters? .xml = some ["second"]) ∧
      ∃ line, commandLine.read ["-v", "-d", "every"] = .ok line ∧
        ¬ KnowsWords line.requests ∧
        (run ["-v", "-d", "every"] disk).exitCode = failureCode := by
  intro arguments disk settings
  have read : commandLine.read arguments =
      .ok { commandLine with
        requests := [⟨.executable, .version, some []⟩,
          ⟨.setting, .debug, some ["tokens"]⟩,
          ⟨.setting, .xml, some ["first"]⟩,
          ⟨.executable, .compile, some ["A.jack"]⟩,
          ⟨.setting, .xml, some ["second"]⟩,
          ⟨.setting, .debug, some []⟩] } := by
    decide +kernel
  have readUnknown : commandLine.read ["-v", "-d", "every"] =
      .ok { commandLine with
        requests := [⟨.executable, .version, some []⟩,
          ⟨.setting, .debug, some ["every"]⟩] } := by
    decide +kernel
  obtain ⟨_, _, finds, _⟩ := settings_in_force read disk
  obtain ⟨_, _, _, ends⟩ := settings_in_force readUnknown disk
  constructor
  · obtain ⟨reaches, inForce⟩ := finds (by decide) settings
      ⟨.executable, .version, some []⟩ _ rfl rfl
    obtain ⟨state, run⟩ := reaches (by decide)
    have holds := inForce state run
    exact ⟨_, read, rfl, state, run, holds, holds.xml.parameters_eq⟩
  · obtain ⟨_, word, _, run⟩ := ends (by decide)
    exact ⟨_, readUnknown, by decide, by rw [run]⟩

end JackToVm.Application
