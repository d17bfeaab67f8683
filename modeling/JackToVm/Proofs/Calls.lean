import JackToVm.CommandLine.Production
import JackToVm.Proofs.Splitting
import Mathlib.Data.List.Nodup
import Mathlib.Logic.Function.Iterate

/-!
# Calls of rules

Requests are answered by looking for a rule with their purpose, not by the rule
that produced them. Where the purposes of all rules are different, that rule is
found again, so each request is answered once by its own rule, settings first.
-/

namespace JackToVm.CommandLine

variable {ι : Type} {rules selected : List (Rule ι)} {rule : Rule ι}
variable {arguments behind left : List String} {argument : String}
variable {requests : List (Request ι)} {groups : List (Group ι)}
variable {produced : List (Rule ι × Request ι)}

/-! ## Rules that produce requests -/

theorem IsFirst.mem {property : Rule ι → Prop}
    (first : IsFirst rules property rule) : rule ∈ rules := by
  obtain ⟨before, behind, rfl, _, _⟩ := first
  exact List.mem_append_right before List.mem_cons_self

theorem Selects.subset (selects : Selects rules argument selected) :
    selected ⊆ rules := by
  cases selects with
  | long first => simpa using first.mem
  | short _ _ each =>
      clear * - each
      induction each with
      | nil => exact List.nil_subset rules
      | cons first _ inductionHypothesis =>
          exact List.cons_subset.mpr ⟨first.mem, inductionHypothesis⟩

theorem Takes.length_eq (takes : Takes selected behind requests left) :
    selected.length = requests.length := by
  induction takes with
  | nil => rfl
  | cons _ _ inductionHypothesis => exact congrArg (· + 1) inductionHypothesis

theorem Takes.request_eq (takes : Takes selected behind requests left) :
    ∀ made ∈ selected.zip requests,
      made.2.type = made.1.type ∧ made.2.purpose = made.1.purpose := by
  induction takes with
  | nil => simp
  | cons _ _ inductionHypothesis =>
      rw [List.zip_cons_cons, List.forall_mem_cons]
      exact ⟨⟨rfl, rfl⟩, inductionHypothesis⟩

namespace Produces

/-- A rule that produces a request is one of the rules, and its type and purpose
are those of the request. -/
theorem request_eq (produces : Produces rules arguments produced) :
    ∀ made ∈ produced, made.1 ∈ rules ∧
      made.2.type = made.1.type ∧ made.2.purpose = made.1.purpose := by
  induction produces with
  | nil => simp
  | cons selects takes _ inductionHypothesis =>
      rw [List.forall_mem_append]
      refine ⟨fun made member => ?_, inductionHypothesis⟩
      exact ⟨selects.subset (List.of_mem_zip member).1,
        takes.request_eq made member⟩

/-- The requests that are produced are those of the groups of the
arguments. -/
theorem exists_splits (produces : Produces rules arguments produced) :
    ∃ groups, Splits rules arguments groups ∧
      produced.map Prod.snd = groups.flatMap Group.requests := by
  induction produces with
  | nil => exact ⟨[], .nil, rfl⟩
  | cons selects takes _ inductionHypothesis =>
      obtain ⟨groups, splits, same⟩ := inductionHypothesis
      refine ⟨_, .cons selects takes splits, ?_⟩
      rw [List.map_append, List.map_snd_zip (Nat.le_of_eq takes.length_eq.symm),
        same, List.flatMap_cons]

end Produces

theorem Splits.exists_produces (splits : Splits rules arguments groups) :
    ∃ produced, Produces rules arguments produced ∧
      groups.flatMap Group.requests = produced.map Prod.snd := by
  induction splits with
  | nil => exact ⟨[], .nil, rfl⟩
  | cons selects takes _ inductionHypothesis =>
      obtain ⟨others, produces, same⟩ := inductionHypothesis
      refine ⟨_, .cons selects takes produces, ?_⟩
      rw [List.map_append, List.map_snd_zip (Nat.le_of_eq takes.length_eq.symm),
        ← same, List.flatMap_cons]

/-- The requests that are read are those that the rules produce. -/
theorem readRequests_eq_ok_iff_produces :
    readRequests rules arguments = .ok requests ↔
      ∃ produced, Produces rules arguments produced ∧
        requests = produced.map Prod.snd := by
  rw [readRequests_eq_ok_iff]
  constructor
  · rintro ⟨groups, splits, rfl⟩
    exact splits.exists_produces
  · rintro ⟨produced, produces, rfl⟩
    exact produces.exists_splits

/-! ## Settings first -/

section Order

variable {α : Type} (type : α → RuleType) (given : List α)

theorem isSettingsFirst_filter :
    IsSettingsFirst type given
      (given.filter (type · == .setting) ++
        given.filter (type · == .executable)) where
  perm := by
    have other : (fun item => type item == .executable) =
        fun item => !(type item == .setting) := by
      funext item
      cases type item <;> rfl
    rw [other]
    exact List.filter_append_perm _ given
  settings_before := by
    have constant (wanted : RuleType) :
        (given.filter (type · == wanted)).Pairwise fun first second =>
          type second = .setting → type first = .setting := by
      apply List.pairwise_of_forall_mem_list
      intro first isFirst second isSecond settled
      have firstType := (List.mem_filter.mp isFirst).2
      have secondType := (List.mem_filter.mp isSecond).2
      rw [beq_iff_eq] at firstType secondType
      rw [firstType, ← secondType, settled]
    refine List.pairwise_append.mpr
      ⟨constant .setting, constant .executable, ?_⟩
    intro first isFirst second _ _
    exact beq_iff_eq.mp (List.mem_filter.mp isFirst).2
  order_kept := by
    intro wanted
    have selects (own : RuleType) :
        (given.filter (type · == own)).filter (type · == wanted) =
          if own = wanted then given.filter (type · == wanted) else [] := by
      by_cases same : own = wanted
      · subst own
        simp
      · rw [if_neg same, List.filter_eq_nil_iff]
        intro item member
        obtain rfl : type item = own := by
          simpa using (List.mem_filter.mp member).2
        simpa using same
    rw [List.filter_append, selects, selects]
    cases wanted <;> simp

end Order

theorem settingsFirst_settingsFirst (requests : List (Request ι)) :
    settingsFirst (settingsFirst requests) = settingsFirst requests := by
  have kept := (isSettingsFirst_filter Request.type requests).order_kept
  exact congrArg₂ (· ++ ·) (kept .setting) (kept .executable)

theorem settingsFirst_eq_nil_iff :
    settingsFirst requests = [] ↔ requests = [] := by
  have perm := (isSettingsFirst_filter Request.type requests).perm
  constructor
  · intro none
    exact List.nil_perm.mp (none ▸ perm)
  · rintro rfl
    rfl

/-! ## Answers -/

section Answers

variable [DecidableEq ι] {line next : CommandLine ι}

/-- Where all purposes are different, the rule with a purpose is found. -/
theorem exists_findIdx? (distinct : (rules.map Rule.purpose).Nodup)
    (member : rule ∈ rules) :
    ∃ place, rules.findIdx? (·.purpose == rule.purpose) = some place ∧
      rules[place]? = some rule := by
  have found : (rules.findIdx? (·.purpose == rule.purpose)).isSome = true := by
    rw [List.findIdx?_isSome, List.any_eq_true]
    exact ⟨rule, member, beq_self_eq_true _⟩
  obtain ⟨place, isPlace⟩ := Option.isSome_iff_exists.mp found
  refine ⟨place, isPlace, ?_⟩
  obtain ⟨bound, samePurpose, _⟩ :=
    List.findIdx?_eq_some_iff_getElem.mp isPlace
  rw [beq_iff_eq] at samePurpose
  rw [List.getElem?_eq_getElem bound,
    List.inj_on_of_nodup_map distinct (List.getElem_mem bound) member
      samePurpose]

/-- Every request that a rule produced is answered by this rule. -/
theorem map_filterMap_answer (distinct : (rules.map Rule.purpose).Nodup)
    {ordered : List (Rule ι × Request ι)}
    (known : ∀ made ∈ ordered,
      made.1 ∈ rules ∧ made.2.purpose = made.1.purpose) :
    ((ordered.map Prod.snd).filterMap fun request =>
        (rules.findIdx? (·.purpose == request.purpose)).map
          (·, request)).map (fun call => (rules[call.1]?, call.2)) =
      ordered.map fun made => (some made.1, made.2) := by
  induction ordered with
  | nil => rfl
  | cons made others inductionHypothesis =>
      rw [List.forall_mem_cons] at known
      obtain ⟨place, found, isRule⟩ := exists_findIdx? distinct known.1.1
      rw [← known.1.2] at found
      rw [List.map_cons, List.filterMap_cons_some (b := (place, made.2))
        (by rw [found, Option.map_some]), List.map_cons,
        inductionHypothesis known.2, List.map_cons, isRule]

theorem calls_eq_filterMap (some : line.requests ≠ []) :
    line.calls = (settingsFirst line.requests).filterMap fun request =>
      (line.rules.findIdx? (·.purpose == request.purpose)).map
        (·, request) := by
  rw [calls, if_neg (by simpa using some)]

theorem calls_eq_default (none : line.requests = []) :
    line.calls = line.defaultRequest?.toList := by
  rw [calls, if_pos (by simpa using none)]

/-- Requests that were run once are run in the same way again. -/
theorem calls_afterCalls (line : CommandLine ι) :
    line.afterCalls.calls = line.calls := by
  by_cases none : line.requests = []
  · have noneBehind : line.afterCalls.requests = [] :=
      settingsFirst_eq_nil_iff.mpr none
    rw [calls_eq_default none, calls_eq_default noneBehind]
    rfl
  · have someBehind : line.afterCalls.requests ≠ [] :=
      fun noneBehind => none (settingsFirst_eq_nil_iff.mp noneBehind)
    have sameOrder : settingsFirst line.afterCalls.requests =
        settingsFirst line.requests :=
      settingsFirst_settingsFirst line.requests
    rw [calls_eq_filterMap none, calls_eq_filterMap someBehind, sameOrder]
    rfl

/-- Of a command line whose rules have different purposes, every request is
answered once, by the rule that produced it; settings come first, and requests
of one type stay in their order. Without a request the default rule alone is
called, if there is one. Running the requests again makes the same calls. -/
theorem calls_answer_requests
    (distinct : (line.rules.map Rule.purpose).Nodup)
    (read : line.read arguments = .ok next) :
    (∃ produced, Produces line.rules arguments produced) ∧
    (∀ produced, Produces line.rules arguments produced →
      next.requests = produced.map Prod.snd ∧
      (next.requests ≠ [] →
        ∃ ordered,
          IsSettingsFirst (fun made => made.2.type) produced ordered ∧
          next.calls.map (fun call => (line.rules[call.1]?, call.2)) =
            ordered.map fun made => (some made.1, made.2))) ∧
    (next.requests = [] →
      (line.defaultRule = none → next.calls = []) ∧
      ∀ place rule, line.defaultRule = some place →
        line.rules[place]? = some rule →
        next.calls = [(place, ⟨rule.type, rule.purpose, none⟩)]) ∧
    ∀ again : Nat, (afterCalls^[again] next).calls = next.calls := by
  obtain ⟨requests, readRequests, built⟩ := Except.bind_eq_ok_iff.mp read
  obtain rfl := Except.ok.inj built
  refine ⟨?_, ?_, ?_, ?_⟩
  · obtain ⟨produced, produces, _⟩ :=
      readRequests_eq_ok_iff_produces.mp readRequests
    exact ⟨produced, produces⟩
  · intro produced produces
    have sameRequests : requests = produced.map Prod.snd := by
      have readProduced :=
        readRequests_eq_ok_iff_produces.mpr ⟨produced, produces, rfl⟩
      rw [readProduced] at readRequests
      exact (Except.ok.inj readRequests).symm
    refine ⟨sameRequests, fun some => ?_⟩
    have order := isSettingsFirst_filter
      (fun made : Rule ι × Request ι => made.2.type) produced
    refine ⟨_, order, ?_⟩
    have known := fun made member =>
      (produces.request_eq made (order.perm.mem_iff.mp member)).imp_right
        And.right
    rw [calls_eq_filterMap some, ← map_filterMap_answer distinct known,
      List.map_append, sameRequests, settingsFirst, List.filter_map,
      List.filter_map]
    rfl
  · intro none
    rw [calls_eq_default none]
    constructor
    · intro noDefault
      simp [defaultRequest?, noDefault]
    · intro place rule isDefault isRule
      simp [defaultRequest?, isDefault, isRule]
  · intro again
    induction again with
    | zero => rfl
    | succ times inductionHypothesis =>
        rw [Function.iterate_succ_apply', calls_afterCalls,
          inductionHypothesis]

end Answers

/-- Requests of two types and with two flags behind one dash: the settings are
answered first, in their order, and the build last. -/
theorem calls_answer_requests_mixed :
    let line := Application.commandLine
    let arguments := ["-c", "A.jack", "-xo", "dumps", "out"]
    (line.rules.map Rule.purpose).Nodup ∧
      ∃ next, line.read arguments = .ok next ∧
        (∃ produced, Produces line.rules arguments produced ∧
          produced.length = 3) ∧
        next.calls =
          [(4, ⟨.setting, .xml, some ["dumps"]⟩),
            (3, ⟨.setting, .output, some ["out"]⟩),
            (5, ⟨.executable, .compile, some ["A.jack"]⟩)] ∧
        (afterCalls^[2] next).calls = next.calls := by
  intro line arguments
  have distinct : (line.rules.map Rule.purpose).Nodup := by
    decide
  have read : line.read arguments =
      .ok { line with
        requests := [⟨.executable, .compile, some ["A.jack"]⟩,
          ⟨.setting, .xml, some ["dumps"]⟩,
          ⟨.setting, .output, some ["out"]⟩] } := by
    decide +kernel
  obtain ⟨⟨produced, produces⟩, requests, _, again⟩ :=
    calls_answer_requests distinct read
  have sameRequests := (requests produced produces).1
  refine ⟨distinct, _, read, ⟨produced, produces, ?_⟩, by decide, again 2⟩
  simpa using (congrArg List.length sameRequests).symm

end JackToVm.CommandLine
