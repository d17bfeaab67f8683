import JackToVm.Application
import JackToVm.CommandLine.Splitting
import JackToVm.Proofs.Running

/-!
# Reading arguments

Arguments are read exactly if they split into groups, and then into the requests
of the groups. The reading first cuts the arguments before every flag argument
and then deals out each piece to the rules; since no run of parameters reaches
over a flag argument, the pieces are the groups.
-/

namespace JackToVm.CommandLine

variable {ι : Type} {rules selected : List (Rule ι)} {rule : Rule ι}
variable {argument : String} {arguments behind left run : List String}
variable {requests : List (Request ι)} {groups : List (Group ι)}

/-! ## Rules of a flag argument -/

theorem findRule_eq_ok_iff {κ : Type} [BEq κ] [LawfulBEq κ]
    (key : Rule ι → κ) (value : κ) (flag : String) :
    findRule rules flag (key · == value) = .ok rule ↔
      IsFirst rules (key · = value) rule := by
  have found : findRule rules flag (key · == value) = .ok rule ↔
      rules.find? (key · == value) = some rule := by
    unfold findRule
    cases rules.find? (key · == value) <;> simp
  rw [found, List.find?_eq_some_iff_append, IsFirst]
  simp only [beq_iff_eq, Bool.not_eq_true', beq_eq_false_iff_ne]
  constructor
  · rintro ⟨holds, before, later, whole, others⟩
    exact ⟨before, later, whole, holds, others⟩
  · rintro ⟨before, later, whole, holds, others⟩
    exact ⟨holds, before, later, whole, others⟩

theorem rulesOf_long (word : String) :
    rulesOf rules ("--" ++ word) =
      (findRule rules word (·.longFlag == word)).map fun rule => [rule] := by
  have letters : ("--" ++ word).toList = '-' :: '-' :: word.toList := by
    simp
  rw [rulesOf, letters]
  simp only [String.ofList_toList]

theorem rulesOf_short {flags : List Char} (nonempty : flags ≠ [])
    (single : flags.head? ≠ some '-') :
    rulesOf rules ("-" ++ String.ofList flags) =
      flags.mapM fun flag =>
        findRule rules (String.singleton flag) (·.flag == flag) := by
  have letters : ("-" ++ String.ofList flags).toList = '-' :: flags := by
    simp
  rw [rulesOf, letters]
  cases flags with
  | nil => exact absurd rfl nonempty
  | cons first others =>
      have different : first ≠ '-' := fun same => single (congrArg some same)
      split
      next same =>
        injection same with _ same
        injection same with dash _
        exact absurd dash different
      next same =>
        injection same with _ same
        rw [same]
      next other => exact absurd rfl (other first others)

theorem rulesOf_eq_ok_iff :
    rulesOf rules argument = .ok selected ↔
      Selects rules argument selected := by
  constructor
  · intro found
    unfold rulesOf at found
    split at found
    next word letters =>
      have long : argument = "--" ++ String.ofList word := by
        rw [← String.toList_inj, letters]
        simp
      rw [long]
      cases search : findRule rules (String.ofList word)
          (·.longFlag == String.ofList word) with
      | error cause =>
          simp only [search] at found
          cases found
      | ok rule =>
          simp only [search] at found
          obtain rfl := Except.ok.inj found
          exact .long ((findRule_eq_ok_iff _ _ _).mp search)
    next first others notLong letters =>
      have short : argument = "-" ++ String.ofList (first :: others) := by
        rw [← String.toList_inj, letters]
        simp
      have single : (first :: others).head? ≠ some '-' := by
        intro dash
        obtain rfl := Option.some.inj dash
        exact notLong rfl
      rw [Except.mapM_eq_ok_iff] at found
      rw [short]
      refine .short (List.cons_ne_nil _ _) single ?_
      exact found.imp fun flag rule first =>
        (findRule_eq_ok_iff _ _ _).mp first
    next => cases found
  · intro selects
    cases selects with
    | @long word rule first =>
        rw [rulesOf_long, (findRule_eq_ok_iff _ word word).mpr first]
        rfl
    | @short flags _ nonempty single each =>
        rw [rulesOf_short nonempty single, Except.mapM_eq_ok_iff]
        exact each.imp fun flag rule first =>
          (findRule_eq_ok_iff _ flag _).mpr first

theorem Selects.isFlagArgument (selects : Selects rules argument selected) :
    isFlagArgument argument = true := by
  cases selects <;> simp [CommandLine.isFlagArgument]

/-! ## Cutting arguments before flag arguments -/

theorem group_cons_flag (flag : isFlagArgument argument = true)
    (behind : List String) :
    group (argument :: behind) =
      ([], (argument, (group behind).1) :: (group behind).2) := by
  rw [group]
  simp [flag]

theorem group_cons_parameter (parameter : isFlagArgument argument = false)
    (behind : List String) :
    group (argument :: behind) =
      (argument :: (group behind).1, (group behind).2) := by
  rw [group]
  simp [parameter]

/-- Parameters in front of arguments belong to the piece before the first flag
argument. -/
theorem group_append
    (parameters : ∀ argument ∈ run, isFlagArgument argument = false)
    (behind : List String) :
    group (run ++ behind) = (run ++ (group behind).1, (group behind).2) := by
  induction run with
  | nil => rfl
  | cons first others inductionHypothesis =>
      rw [List.forall_mem_cons] at parameters
      rw [List.cons_append, group_cons_parameter parameters.1,
        inductionHypothesis parameters.2]
      rfl

theorem fst_group_eq_nil_iff :
    (group arguments).1 = [] ↔
      ∀ next, arguments.head? = some next → isFlagArgument next = true := by
  cases arguments with
  | nil => simp [group]
  | cons first others =>
      cases flag : isFlagArgument first with
      | true => simp [group_cons_flag flag, flag]
      | false => simp [group_cons_parameter flag, flag]

/-- Arguments without a piece are none; the first piece is a flag argument with
the parameters behind it. -/
theorem group_cases (arguments : List String)
    (first : (group arguments).1 = []) :
    arguments = [] ∧ (group arguments).2 = [] ∨
      ∃ argument behind, arguments = argument :: behind ∧
        (group arguments).2 =
          (argument, (group behind).1) :: (group behind).2 := by
  cases arguments with
  | nil => exact Or.inl ⟨rfl, rfl⟩
  | cons argument behind =>
      have flag := fst_group_eq_nil_iff.mp first argument rfl
      exact Or.inr ⟨argument, behind, rfl, by rw [group_cons_flag flag]⟩

theorem isParameter_of_mem_group {parameter : String}
    (member : parameter ∈ (group arguments).1) :
    isFlagArgument parameter = false := by
  induction arguments with
  | nil => cases member
  | cons first others inductionHypothesis =>
      cases flag : isFlagArgument first with
      | true =>
          rw [group_cons_flag flag] at member
          cases member
      | false =>
          rw [group_cons_parameter flag] at member
          rcases List.mem_cons.mp member with rfl | later
          · exact flag
          · exact inductionHypothesis later

/-- Behind the first piece stands a flag argument with the next one, or
nothing. -/
theorem exists_behind_group (arguments : List String) :
    ∃ behind, arguments = (group arguments).1 ++ behind ∧
      group behind = ([], (group arguments).2) := by
  induction arguments with
  | nil => exact ⟨[], rfl, rfl⟩
  | cons first others inductionHypothesis =>
      cases flag : isFlagArgument first with
      | true => exact ⟨first :: others, by simp [group_cons_flag flag]⟩
      | false =>
          obtain ⟨behind, whole, pieces⟩ := inductionHypothesis
          refine ⟨behind, ?_, ?_⟩
          · rw [group_cons_parameter flag, List.cons_append, ← whole]
          · rw [group_cons_parameter flag, pieces]

/-! ## Dealing out parameters -/

/-- What a rule takes of some parameters: as many as it may. -/
def share (rule : Rule ι) (parameters : List String) : List String :=
  match rule.most with
  | some most => parameters.take most
  | none => parameters

theorem share_prefix (rule : Rule ι) (parameters : List String) :
    share rule parameters <+: parameters := by
  unfold share
  cases rule.most with
  | none => exact List.prefix_rfl
  | some most => exact List.take_prefix most parameters

theorem length_share_le {most : Nat} (bounded : rule.most = some most)
    (parameters : List String) : (share rule parameters).length ≤ most := by
  rw [share, bounded]
  exact List.length_take_le most parameters

/-- A rule leaves parameters only if it has its largest number of them. -/
theorem share_longest (rule : Rule ι) (parameters : List String) :
    rule.most = some (share rule parameters).length ∨
      parameters.drop (share rule parameters).length = [] := by
  unfold share
  cases rule.most with
  | none => simp
  | some most =>
      rw [List.length_take, List.drop_eq_nil_iff, Option.some.injEq]
      omega

theorem share_append {behind : List String}
    (bounded : ∀ most, rule.most = some most → run.length ≤ most)
    (longest : rule.most = some run.length ∨ behind = []) :
    share rule (run ++ behind) = run := by
  rw [share]
  cases most : rule.most with
  | none =>
      rcases longest with unbounded | rfl
      · rw [most] at unbounded
        cases unbounded
      · exact List.append_nil run
  | some bound =>
      rcases longest with full | rfl
      · rw [most] at full
        obtain rfl := Option.some.inj full
        exact List.take_left
      · rw [List.append_nil]
        exact List.take_of_length_le (bounded bound most)

theorem requestsOf_cons_eq_ok_iff {parameters : List String} :
    requestsOf argument (rule :: rules) parameters = .ok (requests, left) ↔
      rule.least ≤ (share rule parameters).length ∧
        ∃ more, requestsOf argument rules
            (parameters.drop (share rule parameters).length) =
              .ok (more, left) ∧
          requests =
            ⟨rule.type, rule.purpose, some (share rule parameters)⟩ ::
              more := by
  have unfolded : requestsOf argument (rule :: rules) parameters =
      if (share rule parameters).length < rule.least then
        .error (.missingParameters argument)
      else
        requestsOf argument rules
            (parameters.drop (share rule parameters).length) >>=
          fun dealt => .ok (⟨rule.type, rule.purpose,
            some (share rule parameters)⟩ :: dealt.1, dealt.2) := rfl
  rw [unfolded]
  by_cases few : (share rule parameters).length < rule.least
  · simp [few, Nat.not_le_of_lt few]
  · rw [if_neg few, Except.bind_eq_ok_iff]
    constructor
    · rintro ⟨⟨more, rest⟩, later, built⟩
      obtain ⟨rfl, rfl⟩ := Prod.mk.inj (Except.ok.inj built)
      exact ⟨Nat.not_lt.mp few, more, later, rfl⟩
    · rintro ⟨_, more, later, rfl⟩
      exact ⟨(more, left), later, rfl⟩

/-- Runs are taken from the piece before the first flag argument, and what they
leave of it stands in front of the same pieces. -/
theorem Takes.requestsOf_eq (takes : Takes selected behind requests left)
    (argument : String) :
    requestsOf argument selected (group behind).1 =
        .ok (requests, (group left).1) ∧
      (group behind).2 = (group left).2 := by
  induction takes with
  | nil => exact ⟨rfl, rfl⟩
  | @cons rule rules run behind left requests isShare _
      inductionHypothesis =>
      obtain ⟨dealt, pieces⟩ := inductionHypothesis
      have longest : rule.most = some run.length ∨ (group behind).1 = [] :=
        isShare.longest.imp_right fst_group_eq_nil_iff.mpr
      have own : share rule (run ++ (group behind).1) = run :=
        share_append isShare.le_most longest
      rw [group_append isShare.isParameter, requestsOf_cons_eq_ok_iff, own,
        List.drop_left]
      exact ⟨⟨isShare.least_le, requests, dealt, rfl⟩, pieces⟩

/-- What is dealt out to rules from the piece before the first flag argument
are the runs that they take. -/
theorem exists_takes_of_requestsOf {remaining : List String}
    (dealt : requestsOf argument selected (group behind).1 =
      .ok (requests, remaining)) :
    ∃ left, Takes selected behind requests left ∧
      group left = (remaining, (group behind).2) := by
  induction selected generalizing behind requests with
  | nil =>
      obtain ⟨rfl, rfl⟩ := Prod.mk.inj (Except.ok.inj dealt)
      exact ⟨behind, .nil, rfl⟩
  | cons rule rules inductionHypothesis =>
      obtain ⟨enough, more, later, rfl⟩ :=
        requestsOf_cons_eq_ok_iff.mp dealt
      obtain ⟨others, whole, pieces⟩ := exists_behind_group behind
      obtain ⟨rest, cut⟩ := share_prefix rule (group behind).1
      have parameters : ∀ parameter ∈ share rule (group behind).1 ++ rest,
          isFlagArgument parameter = false := by
        rw [cut]
        exact fun _ => isParameter_of_mem_group
      have longest := share_longest rule (group behind).1
      have bounded : ∀ most, rule.most = some most →
          (share rule (group behind).1).length ≤ most :=
        fun _ most => length_share_le most _
      rw [← cut] at whole
      generalize share rule (group behind).1 = run at *
      have left : (group behind).1.drop run.length = rest := by
        rw [← cut, List.drop_left]
      rw [left] at later longest
      rw [List.forall_mem_append] at parameters
      have behindRun :
          group (rest ++ others) = (rest, (group behind).2) := by
        rw [group_append parameters.2, pieces, List.append_nil]
      have isShare : IsShare rule run (rest ++ others) := by
        refine ⟨parameters.1, enough, bounded, ?_⟩
        rw [← fst_group_eq_nil_iff, behindRun]
        exact longest
      rw [show rest = (group (rest ++ others)).1 by rw [behindRun]] at later
      obtain ⟨last, takes, remaining⟩ := inductionHypothesis later
      rw [behindRun] at remaining
      refine ⟨last, ?_, remaining⟩
      rw [whole, List.append_assoc]
      exact .cons isShare takes

/-! ## All arguments -/

theorem readGroup_eq_ok_iff {parameters : List String} :
    readGroup rules (argument, parameters) = .ok requests ↔
      ∃ selected, Selects rules argument selected ∧
        requestsOf argument selected parameters = .ok (requests, []) := by
  unfold readGroup
  rw [Except.bind_eq_ok_iff]
  simp only [rulesOf_eq_ok_iff, Except.bind_eq_ok_iff]
  constructor
  · rintro ⟨selected, selects, ⟨found, remaining⟩, dealt, rest⟩
    cases remaining with
    | nil =>
        obtain rfl := Except.ok.inj rest
        exact ⟨selected, selects, dealt⟩
    | cons first others => cases rest
  · rintro ⟨selected, selects, dealt⟩
    exact ⟨selected, selects, _, dealt, rfl⟩

/-- Arguments whose pieces are read split into groups with the same
requests. -/
theorem exists_splits_of_pieces {results : List (List (Request ι))}
    (first : (group arguments).1 = [])
    (read : (group arguments).2.mapM (readGroup rules) = .ok results) :
    ∃ groups, Splits rules arguments groups ∧
      groups.flatMap Group.requests = results.flatten := by
  generalize cut : (group arguments).2 = pieces at read
  induction pieces generalizing arguments results with
  | nil =>
      obtain rfl := Except.ok.inj read
      obtain ⟨rfl, _⟩ | ⟨argument, behind, _, some⟩ :=
        group_cases arguments first
      · exact ⟨[], .nil, rfl⟩
      · rw [cut] at some
        cases some
  | cons piece pieces inductionHypothesis =>
      obtain ⟨_, none⟩ | ⟨argument, behind, rfl, some⟩ :=
        group_cases arguments first
      · rw [cut] at none
        cases none
      · rw [cut] at some
        obtain ⟨rfl, rfl⟩ := List.cons.inj some
        rw [List.mapM_cons] at read
        obtain ⟨requests, readFirst, rest⟩ := Except.bind_eq_ok_iff.mp read
        obtain ⟨others, readOthers, built⟩ := Except.bind_eq_ok_iff.mp rest
        obtain rfl := Except.ok.inj built
        obtain ⟨selected, selects, dealt⟩ :=
          readGroup_eq_ok_iff.mp readFirst
        obtain ⟨left, takes, remaining⟩ := exists_takes_of_requestsOf dealt
        obtain ⟨groups, splits, same⟩ :=
          inductionHypothesis (by rw [remaining]) (by rw [remaining]) readOthers
        refine ⟨_, .cons selects takes splits, ?_⟩
        rw [List.flatMap_cons, List.flatten_cons, same]

theorem Splits.exists_pieces (splits : Splits rules arguments groups) :
    ∃ pieces results, group arguments = ([], pieces) ∧
      pieces.mapM (readGroup rules) = .ok results ∧
      results.flatten = groups.flatMap Group.requests := by
  induction splits with
  | nil => exact ⟨[], [], rfl, rfl, rfl⟩
  | @cons argument behind left selected requests groups selects takes _
      inductionHypothesis =>
      obtain ⟨pieces, results, cut, read, same⟩ := inductionHypothesis
      obtain ⟨dealt, samePieces⟩ := takes.requestsOf_eq argument
      rw [cut] at dealt samePieces
      have readFirst := readGroup_eq_ok_iff.mpr ⟨selected, selects, dealt⟩
      refine ⟨_, requests :: results,
        group_cons_flag selects.isFlagArgument behind, ?_, ?_⟩
      · rw [samePieces, List.mapM_cons, readFirst, read]
        rfl
      · rw [List.flatten_cons, List.flatMap_cons, same]

theorem readRequests_eq_ok_iff :
    readRequests rules arguments = .ok requests ↔
      ∃ groups, Splits rules arguments groups ∧
        requests = groups.flatMap Group.requests := by
  unfold readRequests
  constructor
  · intro read
    cases cut : group arguments with
    | mk leading pieces =>
        rw [cut] at read
        cases leading with
        | nil =>
            obtain ⟨results, readPieces, built⟩ :=
              Except.bind_eq_ok_iff.mp read
            obtain rfl := Except.ok.inj built
            obtain ⟨groups, splits, same⟩ :=
              exists_splits_of_pieces (by rw [cut]) (by rwa [cut])
            exact ⟨groups, splits, same.symm⟩
        | cons argument others => cases read
  · rintro ⟨groups, splits, rfl⟩
    obtain ⟨pieces, results, cut, read, same⟩ := splits.exists_pieces
    rw [cut]
    exact Except.bind_eq_ok_iff.mpr ⟨results, read, by rw [← same]; rfl⟩

/-! ## Nothing is lost -/

theorem Takes.arguments_eq (takes : Takes selected behind requests left) :
    behind = (requests.flatMap fun request => request.parameters.getD []) ++
      left := by
  induction takes with
  | nil => rfl
  | cons _ _ inductionHypothesis =>
      rw [List.flatMap_cons, List.append_assoc, ← inductionHypothesis]
      rfl

theorem Splits.arguments_eq (splits : Splits rules arguments groups) :
    groups.flatMap Group.arguments = arguments := by
  induction splits with
  | nil => rfl
  | cons _ takes _ inductionHypothesis =>
      rw [List.flatMap_cons, inductionHypothesis, takes.arguments_eq]
      rfl

/-- A command line is read exactly if its arguments split into groups. Its
requests are then those of the groups, and the groups hold every argument once
and in order. Arguments that do not split leave the command line as it was. -/
theorem read_eq_ok_iff (line : CommandLine) (arguments : List String) :
    (∀ next, line.read arguments = .ok next ↔
      ∃ groups, Splits line.rules arguments groups ∧
        next = { line with requests := groups.flatMap Group.requests }) ∧
    (∀ groups, Splits line.rules arguments groups →
      groups.flatMap Group.arguments = arguments) ∧
    ((¬ ∃ groups, Splits line.rules arguments groups) →
      (∃ cause, line.read arguments = .error cause) ∧
        line.behind arguments = line) := by
  have splits : ∀ next, line.read arguments = .ok next ↔
      ∃ groups, Splits line.rules arguments groups ∧
        next = { line with requests := groups.flatMap Group.requests } := by
    intro next
    unfold read
    rw [Except.bind_eq_ok_iff]
    simp only [readRequests_eq_ok_iff]
    constructor
    · rintro ⟨requests, ⟨groups, split, rfl⟩, built⟩
      exact ⟨groups, split, (Except.ok.inj built).symm⟩
    · rintro ⟨groups, split, rfl⟩
      exact ⟨_, ⟨groups, split, rfl⟩, rfl⟩
  refine ⟨splits, fun groups split => split.arguments_eq, ?_⟩
  intro unsplit
  unfold behind
  cases attempt : line.read arguments with
  | ok next =>
      obtain ⟨groups, split, _⟩ := (splits next).mp attempt
      exact absurd ⟨groups, split⟩ unsplit
  | error cause => exact ⟨⟨cause, rfl⟩, rfl⟩

/-- Two flags behind one dash share the parameters behind them, and a parameter
too many is refused. -/
theorem read_eq_ok_iff_shared :
    let line := Application.commandLine
    let arguments := ["-xo", "dumps", "out", "-c", "A.jack", "B.jack"]
    let requests : List Request :=
      [⟨.setting, .xml, some ["dumps"]⟩, ⟨.setting, .output, some ["out"]⟩,
        ⟨.executable, .compile, some ["A.jack", "B.jack"]⟩]
    (∃ groups, Splits line.rules arguments groups ∧
      groups.flatMap Group.requests = requests ∧
      groups.flatMap Group.arguments = arguments) ∧
    (¬ ∃ groups, Splits line.rules ["-o", "out", "A.jack"] groups) ∧
    line.behind ["-o", "out", "A.jack"] = line := by
  intro line arguments requests
  obtain ⟨splits, whole, _⟩ := read_eq_ok_iff line arguments
  obtain ⟨refuses, _, keeps⟩ := read_eq_ok_iff line ["-o", "out", "A.jack"]
  have read : line.read arguments =
      .ok { line with requests := requests } := by
    decide +kernel
  have refused : line.read ["-o", "out", "A.jack"] =
      .error (.unexpected "A.jack") := by
    decide +kernel
  obtain ⟨groups, split, same⟩ := (splits _).mp read
  have unsplit :
      ¬ ∃ groups, Splits line.rules ["-o", "out", "A.jack"] groups := by
    rintro ⟨others, splitOthers⟩
    have readOthers := (refuses _).mpr ⟨others, splitOthers, rfl⟩
    rw [refused] at readOthers
    cases readOthers
  exact ⟨⟨groups, split, (congrArg CommandLine.requests same).symm,
    whole groups split⟩, unsplit, (keeps unsplit).2⟩

end JackToVm.CommandLine
