import JackToVm.Compilation.Statement
import JackToVm.Proofs.Passage
import JackToVm.Proofs.Running

/-!
# What the steps of a pass read

Every small step of a pass succeeds exactly if its passage connects the states
before and behind it. What is composed of small steps has rules in both
directions: `bind_eq_ok_iff` finds the states between the parts of a success,
and `Reads` composes the passages of the parts to a success of the whole.
-/

namespace JackToVm.Pass

variable {α β : Type}
variable {before behind : PassState}

/-! ## Sequences of steps -/

theorem bind_eq_ok_iff {step : Pass α} {next : α → Pass β} {result : β} :
    (step >>= next).run before = .ok result behind ↔
      ∃ value between, step.run before = .ok value between ∧
        (next value).run between = .ok result behind :=
  EStateM.run_bind_eq_ok_iff

theorem pure_eq_ok_iff {value result : α} :
    (pure value : Pass α).run before = .ok result behind ↔
      result = value ∧ behind = before :=
  EStateM.run_pure_eq_ok_iff

theorem throw_ne_ok {cause : CompileError} {result : α} :
    (throw cause : Pass α).run before ≠ .ok result behind :=
  EStateM.run_throw_ne_ok

/-- Looking at the next token changes nothing. -/
@[simp]
theorem run_peek_bind (next : Option Token → Pass β) :
    (peek >>= next).run before = (next before.next?).run before := rfl

@[simp]
theorem run_nextIs_bind (token : Token) (next : Bool → Pass β) :
    (nextIs token >>= next).run before =
      (next (before.next? == some token)).run before := rfl

theorem unexpected_ne_ok {expected : Expectation} {result : α} :
    (unexpected expected : Pass α).run before ≠ .ok result behind := by
  intro run
  cases run

theorem tooDeep_ne_ok {node : Node} {result : α} :
    (tooDeep node : Pass α).run before ≠ .ok result behind :=
  throw_ne_ok

/-! ## Small steps -/

theorem leaf_connects_iff {token : Token} :
    (Passage.leaf token).Connects before behind ↔
      before.next? = some token ∧ behind = before.advance := by
  have advanced (next : before.next? = some token) :
      before.advance = before.after (Passage.leaf token) := by
    simp [PassState.advance, next, PassState.after, Passage.leaf,
      Passage.empty, LabelCounters.advance, Passage.tokens, Step.token?]
  constructor
  · intro connects
    have next : before.next? = some token := connects.next?_eq
    exact ⟨next, by rw [connects.behind_eq, advanced next]⟩
  · rintro ⟨next, rfl⟩
    refine ⟨advanced next, ?_, fun _ => Nat.zero_le _⟩
    rw [PassState.next?_eq_head?] at next
    obtain ⟨others, rest⟩ := List.head?_eq_some_iff.mp next
    rw [PassState.rest_advance, rest]
    rfl

theorem emitted_connects_iff {commands : List Command} :
    (Passage.emitted commands).Connects before behind ↔
      behind = { before with code := before.code ++ commands } := by
  have written :
      before.after (Passage.emitted commands) =
        { before with code := before.code ++ commands } := by
    simp [PassState.after, Passage.emitted, Passage.empty,
      Passage.tokens, LabelCounters.advance]
  constructor
  · intro connects
    rw [connects.behind_eq, written]
  · rintro rfl
    exact ⟨written.symm, rfl, fun _ => Nat.zero_le _⟩

theorem numbered_connects_iff {kind : LabelKind} :
    (Passage.numbered kind).Connects before behind ↔
      before.labels.Allow (.one kind) ∧
        behind =
          { before with labels := before.labels.advance (.one kind) } := by
  have taken :
      before.after (Passage.numbered kind) =
        { before with labels := before.labels.advance (.one kind) } := by
    simp [PassState.after, Passage.numbered, Passage.empty,
      Passage.tokens]
  constructor
  · intro connects
    exact ⟨connects.allowed, by rw [connects.behind_eq, taken]⟩
  · rintro ⟨allowed, rfl⟩
    exact ⟨taken.symm, rfl, allowed⟩

theorem advance_eq_ok_iff {token : Token}
    (next : before.next? = some token) {result : Unit} :
    advance.run before = .ok result behind ↔
      (Passage.leaf token).Connects before behind := by
  have run : advance.run before = .ok () before.advance := rfl
  simp only [run, leaf_connects_iff, next, true_and,
    EStateM.Result.ok.injEq]
  exact eq_comm

theorem emit_eq_ok_iff {commands : List Command} {result : Unit} :
    (emit commands).run before = .ok result behind ↔
      (Passage.emitted commands).Connects before behind := by
  have run :
      (emit commands).run before =
        .ok () { before with code := before.code ++ commands } := rfl
  simp only [run, emitted_connects_iff, true_and,
    EStateM.Result.ok.injEq]
  exact eq_comm

/-- A step that takes one particular token or fails. -/
private theorem expect_eq_ok_iff {token : Token} {expected : Expectation}
    {result : Unit} :
    (do
      if ← nextIs token then
        advance
      else
        unexpected expected : Pass Unit).run before = .ok result behind ↔
      (Passage.leaf token).Connects before behind := by
  rw [run_nextIs_bind]
  by_cases next : before.next? = some token
  · simp only [next, BEq.rfl, if_true]
    exact advance_eq_ok_iff next
  · have refused : (before.next? == some token) = false := by
      simpa using next
    simp only [refused, Bool.false_eq_true, if_false]
    refine iff_of_false unexpected_ne_ok ?_
    intro connects
    exact next connects.next?_eq

theorem expectKeyword_eq_ok_iff {reserved : Keyword} {result : Unit} :
    (expectKeyword reserved).run before = .ok result behind ↔
      (Passage.leaf (.keyword reserved)).Connects before behind :=
  expect_eq_ok_iff

theorem expectSymbol_eq_ok_iff {sign : Symbol} {result : Unit} :
    (expectSymbol sign).run before = .ok result behind ↔
      (Passage.leaf (.symbol sign)).Connects before behind :=
  expect_eq_ok_iff

theorem expectName_eq_ok_iff {role : NameRole} {name : String} :
    (expectName role).run before = .ok name behind ↔
      (Passage.leaf (.identifier name)).Connects before behind := by
  rw [expectName, run_peek_bind]
  constructor
  · intro run
    split at run
    next found next =>
      obtain ⟨_, between, taken, named⟩ := bind_eq_ok_iff.mp run
      obtain ⟨rfl, rfl⟩ := pure_eq_ok_iff.mp named
      exact (advance_eq_ok_iff next).mp taken
    next => exact absurd run unexpected_ne_ok
  · intro connects
    have next : before.next? = some (.identifier name) :=
      connects.next?_eq
    simp only [next]
    exact bind_eq_ok_iff.mpr
      ⟨(), behind, (advance_eq_ok_iff next).mpr connects, rfl⟩

theorem expectType_eq_ok_iff {type : TypeName} :
    expectType.run before = .ok type behind ↔
      (Passage.leaf type.token).Connects before behind := by
  rw [expectType, run_peek_bind]
  constructor
  · intro run
    split at run
    next found selected =>
      obtain ⟨token, next, named⟩ := Option.bind_eq_some_iff.mp selected
      obtain ⟨_, between, taken, typed⟩ := bind_eq_ok_iff.mp run
      obtain ⟨rfl, rfl⟩ := pure_eq_ok_iff.mp typed
      rw [TypeName.ofToken?_eq_some_iff] at named
      subst token
      exact (advance_eq_ok_iff next).mp taken
    next => exact absurd run unexpected_ne_ok
  · intro connects
    have next : before.next? = some type.token := connects.next?_eq
    have selected :
        before.next?.bind TypeName.ofToken? = some type := by
      rw [next]
      exact TypeName.ofToken?_eq_some_iff.mpr rfl
    simp only [selected]
    exact bind_eq_ok_iff.mpr
      ⟨(), behind, (advance_eq_ok_iff next).mpr connects, rfl⟩

theorem run_takeLabels (kind : LabelKind) (before : PassState) :
    (takeLabels kind).run before =
      match before.labels.take? kind with
      | some (labels, counters) =>
          .ok labels { before with labels := counters }
      | none => .error (.limit (.labels kind)) before := by
  rw [takeLabels, EStateM.run_bind, EStateM.run_get]
  cases available : before.labels.take? kind with
  | none =>
      simp only [available]
      rfl
  | some found =>
      simp only [available]
      rfl

theorem takeLabels_eq_ok_iff {kind : LabelKind} {labels : LabelPair} :
    (takeLabels kind).run before = .ok labels behind ↔
      labels = kind.pair (before.labels.used kind) ∧
        (Passage.numbered kind).Connects before behind := by
  rw [numbered_connects_iff, run_takeLabels]
  cases available : before.labels.take? kind with
  | none =>
      constructor
      · intro taken
        cases taken
      · intro taken
        rw [LabelCounters.take?_eq_some_iff.mpr
          ⟨rfl, rfl, taken.2.1⟩] at available
        cases available
  | some found =>
      obtain ⟨pair, counters⟩ := found
      obtain ⟨rfl, rfl, allowed⟩ :=
        LabelCounters.take?_eq_some_iff.mp available
      constructor
      · intro taken
        cases taken
        exact ⟨rfl, allowed, rfl⟩
      · intro taken
        obtain ⟨rfl, _, rfl⟩ := taken
        rfl

theorem require_eq_ok_iff {scope : Scope} {name : String}
    {resolved : Variable} :
    (require scope name).run before = .ok resolved behind ↔
      scope.resolve? name = some resolved ∧ behind = before := by
  unfold require
  cases scope.resolve? name with
  | some found =>
      simp only [Option.some.injEq]
      rw [pure_eq_ok_iff]
      exact and_congr_left fun _ => eq_comm
  | none =>
      refine iff_of_false throw_ne_ok ?_
      simp

theorem addArguments_eq_ok_iff {target : String} {count more sum : Nat} :
    (addArguments target count more).run before = .ok sum behind ↔
      count + more ≤ maxCount ∧ sum = count + more ∧
        behind = before := by
  unfold addArguments
  split
  next fits => simp only [fits, true_and, pure_eq_ok_iff]
  next exceeds =>
      refine iff_of_false throw_ne_ok ?_
      simp [exceeds]

theorem run_within (node : Node) (body : Pass α) (before : PassState) :
    (within node body).run before =
      match body.run (before.enter node) with
      | .ok result outside => .ok result (outside.leave node)
      | .error cause outside => .error cause outside := by
  unfold within
  rw [EStateM.run_bind]
  change (body >>= _).run (before.enter node) = _
  rw [EStateM.run_bind]
  cases body.run (before.enter node) <;> rfl

theorem within_eq_ok_iff {node : Node} {body : Pass α} {result : α} :
    (within node body).run before = .ok result behind ↔
      ∃ outside, body.run (before.enter node) = .ok result outside ∧
        behind = outside.leave node := by
  rw [run_within]
  cases body.run (before.enter node) with
  | ok found outside =>
      simp only [EStateM.Result.ok.injEq]
      constructor
      · rintro ⟨rfl, rfl⟩
        exact ⟨outside, ⟨rfl, rfl⟩, rfl⟩
      · rintro ⟨_, ⟨rfl, rfl⟩, rfl⟩
        exact ⟨rfl, rfl⟩
  | error cause outside => simp

end JackToVm.Pass
