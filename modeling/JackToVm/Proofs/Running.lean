import Mathlib.Data.List.Forall2

/-!
# Runs that succeed

When a sequence of steps succeeds: every step before its last one has, and the
next one goes on from the state that it left.
-/

namespace Except

variable {ε α β : Type}

theorem bind_eq_ok_iff {step : Except ε α} {next : α → Except ε β}
    {result : β} :
    step >>= next = .ok result ↔
      ∃ value, step = .ok value ∧ next value = .ok result := by
  cases step with
  | ok value =>
      constructor
      · intro run
        exact ⟨value, rfl, run⟩
      · rintro ⟨_, same, run⟩
        cases same
        exact run
  | error cause => simp [bind, Except.bind]

/-- What a loop over a list yields has the properties that its items give
it. -/
theorem map_of_mapM {γ : Type} {step : α → Except ε β} {list : List α}
    {results : List β} {ofResult : β → γ} {ofItem : α → γ}
    (agree : ∀ item ∈ list, ∀ result, step item = .ok result →
      ofResult result = ofItem item)
    (run : list.mapM step = .ok results) :
    results.map ofResult = list.map ofItem := by
  induction list generalizing results with
  | nil =>
      obtain rfl := Except.ok.inj run
      rfl
  | cons first others inductionHypothesis =>
      rw [List.forall_mem_cons] at agree
      rw [List.mapM_cons] at run
      obtain ⟨head, runFirst, rest⟩ := bind_eq_ok_iff.mp run
      obtain ⟨tail, runOthers, built⟩ := bind_eq_ok_iff.mp rest
      obtain rfl := Except.ok.inj built
      rw [List.map_cons, List.map_cons, agree.1 head runFirst,
        inductionHypothesis agree.2 runOthers]

/-- A loop over a list succeeds exactly if its step does for every item. -/
theorem mapM_eq_ok_iff {step : α → Except ε β} {list : List α}
    {results : List β} :
    list.mapM step = .ok results ↔
      List.Forall₂ (fun item result => step item = .ok result) list
        results := by
  induction list generalizing results with
  | nil =>
      rw [List.mapM_nil, List.forall₂_nil_left_iff]
      exact ⟨fun run => (Except.ok.inj run).symm, fun none => none ▸ rfl⟩
  | cons first others inductionHypothesis =>
      rw [List.mapM_cons, bind_eq_ok_iff, List.forall₂_cons_left_iff]
      constructor
      · rintro ⟨head, runFirst, rest⟩
        obtain ⟨tail, runOthers, built⟩ := bind_eq_ok_iff.mp rest
        obtain rfl := Except.ok.inj built
        exact ⟨head, tail, runFirst, inductionHypothesis.mp runOthers, rfl⟩
      · rintro ⟨head, tail, runFirst, runOthers, rfl⟩
        exact ⟨head, runFirst, bind_eq_ok_iff.mpr
          ⟨tail, inductionHypothesis.mpr runOthers, rfl⟩⟩

theorem length_of_mapM {step : α → Except ε β} {list : List α}
    {results : List β} (run : list.mapM step = .ok results) :
    results.length = list.length := by
  have same :
      results.map (fun _ => ()) = list.map fun _ => () :=
    map_of_mapM (fun _ _ _ _ => rfl) run
  simpa using congrArg List.length same

theorem exists_of_mem_mapM {step : α → Except ε β} {list : List α}
    {results : List β} (run : list.mapM step = .ok results) {result : β}
    (member : result ∈ results) : ∃ item ∈ list, step item = .ok result := by
  have same : results.map Except.ok = list.map step :=
    map_of_mapM (fun _ _ _ found => found.symm) run
  have found : Except.ok result ∈ list.map step := by
    rw [← same]
    exact List.mem_map_of_mem member
  exact List.mem_map.mp found

theorem exists_mem_of_mapM {step : α → Except ε β} {list : List α}
    {results : List β} (run : list.mapM step = .ok results) {item : α}
    (member : item ∈ list) : ∃ result ∈ results, step item = .ok result := by
  have same : results.map Except.ok = list.map step :=
    map_of_mapM (fun _ _ _ found => found.symm) run
  have found : step item ∈ results.map Except.ok := by
    rw [same]
    exact List.mem_map_of_mem member
  obtain ⟨result, within, isResult⟩ := List.mem_map.mp found
  exact ⟨result, within, isResult.symm⟩

theorem exists_mapM_eq_ok_iff {step : α → Except ε β} {list : List α} :
    (∃ results, list.mapM step = .ok results) ↔
      ∀ item ∈ list, ∃ result, step item = .ok result := by
  constructor
  · rintro ⟨results, run⟩ item member
    obtain ⟨result, _, found⟩ := exists_mem_of_mapM run member
    exact ⟨result, found⟩
  · intro each
    induction list with
    | nil => exact ⟨[], rfl⟩
    | cons first others inductionHypothesis =>
        rw [List.forall_mem_cons] at each
        obtain ⟨head, runFirst⟩ := each.1
        obtain ⟨tail, runOthers⟩ := inductionHypothesis each.2
        exact ⟨head :: tail,
          mapM_eq_ok_iff.mpr (.cons runFirst (mapM_eq_ok_iff.mp runOthers))⟩

theorem mapM_congr {step other : α → Except ε β} {list : List α}
    (same : ∀ item ∈ list, step item = other item) :
    list.mapM step = list.mapM other := by
  induction list with
  | nil => rfl
  | cons first others inductionHypothesis =>
      rw [List.forall_mem_cons] at same
      rw [List.mapM_cons, List.mapM_cons, same.1, inductionHypothesis same.2]

/-- Items for which the step succeeds do not change with which cause a loop
fails. -/
theorem mapM_eq_error_of_filter {step : α → Except ε β} {list : List α}
    {keep : α → Bool} {cause : ε}
    (passes : ∀ item ∈ list, keep item = false →
      ∃ result, step item = .ok result)
    (fails : (list.filter keep).mapM step = .error cause) :
    list.mapM step = .error cause := by
  induction list with
  | nil => cases fails
  | cons first others inductionHypothesis =>
      rw [List.forall_mem_cons] at passes
      rw [List.mapM_cons]
      by_cases kept : keep first = true
      · rw [List.filter_cons_of_pos kept, List.mapM_cons] at fails
        cases runFirst : step first with
        | error other =>
            rw [runFirst] at fails
            exact fails
        | ok result =>
            rw [runFirst] at fails
            cases runOthers : (others.filter keep).mapM step with
            | error other =>
                rw [runOthers] at fails
                obtain rfl := Except.error.inj fails
                rw [inductionHypothesis passes.2 runOthers]
                rfl
            | ok results =>
                rw [runOthers] at fails
                cases fails
      · rw [List.filter_cons_of_neg kept] at fails
        obtain ⟨result, runFirst⟩ := passes.1 (Bool.not_eq_true _ ▸ kept)
        rw [runFirst, inductionHypothesis passes.2 fails]
        rfl

end Except

namespace EStateM

variable {ε σ α β : Type} {before behind : σ}

theorem run_bind_eq_ok_iff {step : EStateM ε σ α}
    {next : α → EStateM ε σ β} {result : β} :
    (step >>= next).run before = .ok result behind ↔
      ∃ value between, step.run before = .ok value between ∧
        (next value).run between = .ok result behind := by
  rw [EStateM.run_bind]
  cases step.run before with
  | ok value between =>
      constructor
      · intro run
        exact ⟨value, between, rfl, run⟩
      · rintro ⟨_, _, same, run⟩
        cases same
        exact run
  | error cause between => simp

theorem run_pure_eq_ok_iff {value result : α} :
    (pure value : EStateM ε σ α).run before = .ok result behind ↔
      result = value ∧ behind = before := by
  simp only [EStateM.run, pure, EStateM.pure, EStateM.Result.ok.injEq]
  exact and_congr eq_comm eq_comm

theorem run_throw_ne_ok {cause : ε} {result : α} :
    (throw cause : EStateM ε σ α).run before ≠ .ok result behind := by
  intro run
  cases run

/-- Whether a run succeeds with a result and a state of the given kind. -/
def Result.Yields (run : Result ε σ α) (property : α → σ → Prop) : Prop :=
  ∃ result state, run = .ok result state ∧ property result state

instance {run : Result ε σ α} {property : α → σ → Prop}
    [∀ result state, Decidable (property result state)] :
    Decidable (run.Yields property) :=
  match run with
  | .ok result state =>
      decidable_of_iff (property result state)
        ⟨fun holds => ⟨result, state, rfl, holds⟩,
          fun ⟨_, _, same, holds⟩ => by cases same; exact holds⟩
  | .error _ _ => .isFalse nofun

/-- Whether a run fails with a cause and a state of the given kind. -/
def Result.Fails (run : Result ε σ α) (property : ε → σ → Prop) : Prop :=
  ∃ cause state, run = .error cause state ∧ property cause state

instance {run : Result ε σ α} {property : ε → σ → Prop}
    [∀ cause state, Decidable (property cause state)] :
    Decidable (run.Fails property) :=
  match run with
  | .ok _ _ => .isFalse nofun
  | .error cause state =>
      decidable_of_iff (property cause state)
        ⟨fun holds => ⟨cause, state, rfl, holds⟩,
          fun ⟨_, _, same, holds⟩ => by cases same; exact holds⟩

end EStateM
