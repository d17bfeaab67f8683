import JackToVm.Proofs.ExpressionRecognition
import JackToVm.Proofs.StatementReading

/-!
# Recognizing statements

Whatever a pass accepts as a statement is one: there is an admissible
statement, within the room that was given, whose passage connects the states
before and behind. As for expressions, the proof is by induction on the room.
-/

namespace JackToVm.Pass

open Passage
open DerivationTree (heightOfList)

variable {scope : Scope} {declared : List String} {room : Nat}
variable {before behind : PassState}

theorem recognizes_node (known : scope.Declares declared)
    (run : (expression scope room).run before = .ok () behind) :
    ∃ whole : Expression, whole.Admissible declared ∧
      whole.derivation.height ≤ room ∧
      ((whole.passage scope).inside .expression).Connects before behind :=
  (recognizesExpressions known room).expression run

/-! ## Statements without statements inside -/

theorem recognizes_letStatement (known : scope.Declares declared)
    (run : (letStatement scope room).run before = .ok () behind)
    (used : NumbersUsed) :
    ∃ one : Statement, one.Admissible declared ∧
      one.derivation.height ≤ room ∧
      (one.passage scope used).Connects before behind := by
  cases room with
  | zero =>
      rw [letStatement] at run
      exact absurd run tooDeep_ne_ok
  | succ room =>
      rw [letStatement] at run
      obtain ⟨outside, inner, rfl⟩ := within_eq_ok_iff.mp run
      simp only [bind_eq_ok_iff, require_eq_ok_iff,
        expectKeyword_eq_ok_iff, expectName_eq_ok_iff] at inner
      obtain ⟨_, _, connectsLet, target, _, connectsTarget, resolved, _,
        ⟨found, rfl⟩, _, _, peeked, branch⟩ := inner
      have member := Scope.mem_of_resolve? known found
      cases peeked
      split at branch
      next bracket =>
        simp only [bind_eq_ok_iff, emit_eq_ok_iff,
          expectSymbol_eq_ok_iff] at branch
        obtain ⟨_, _, readLeft, _, _, connectsPush, _, _, readIndex, _, _,
          connectsRight, _, _, connectsAdd, _, _, connectsEqual, _, _,
          readValue, _, _, connectsEnd, connectsStore⟩ := branch
        have connectsLeft :=
          (advance_eq_ok_iff (eq_of_beq bracket)).mp readLeft
        obtain ⟨index, indexAdmissible, indexHeight, connectsIndex⟩ :=
          recognizes_node known readIndex
        obtain ⟨value, valueAdmissible, valueHeight, connectsValue⟩ :=
          recognizes_node known readValue
        refine ⟨.letElement target index value,
          ⟨member, indexAdmissible, valueAdmissible⟩, ?_, ?_⟩
        · simp [Statement.derivation, indexHeight, valueHeight]
        · rw [Statement.passage_letElement,
            Scope.read_of_resolve? found]
          exact (connectsLet.append <| connectsTarget.append <|
            connectsLeft.append <| connectsPush.append <|
            connectsIndex.append <| connectsRight.append <|
            connectsAdd.append <| connectsEqual.append <|
            connectsValue.append <|
            connectsEnd.append connectsStore).inside .letStatement
      next =>
        simp only [bind_eq_ok_iff, emit_eq_ok_iff,
          expectSymbol_eq_ok_iff] at branch
        obtain ⟨_, _, connectsEqual, _, _, readValue, _, _, connectsEnd,
          connectsPop⟩ := branch
        obtain ⟨value, admissible, height, connectsValue⟩ :=
          recognizes_node known readValue
        refine ⟨.letVariable target value, ⟨member, admissible⟩, ?_, ?_⟩
        · simp [Statement.derivation, height]
        · rw [Statement.passage_letVariable,
            Scope.write_of_resolve? found]
          exact (connectsLet.append <| connectsTarget.append <|
            connectsEqual.append <| connectsValue.append <|
            connectsEnd.append connectsPop).inside .letStatement

theorem recognizes_doStatement (known : scope.Declares declared)
    (run : (doStatement scope room).run before = .ok () behind)
    (used : NumbersUsed) :
    ∃ one : Statement, one.Admissible declared ∧
      one.derivation.height ≤ room ∧
      (one.passage scope used).Connects before behind := by
  cases room with
  | zero =>
      rw [doStatement] at run
      exact absurd run tooDeep_ne_ok
  | succ room =>
      rw [doStatement] at run
      obtain ⟨outside, inner, rfl⟩ := within_eq_ok_iff.mp run
      simp only [bind_eq_ok_iff, emit_eq_ok_iff, expectSymbol_eq_ok_iff,
        expectKeyword_eq_ok_iff, expectName_eq_ok_iff] at inner
      obtain ⟨_, _, connectsDo, name, _, connectsName, _, _, readCall, _, _,
        connectsEnd, connectsPop⟩ := inner
      obtain ⟨target, rfl, admissible, height, connectsCall⟩ :=
        (recognizesExpressions known room).call known readCall
      refine ⟨.doCall target, admissible, ?_, ?_⟩
      · simp [Statement.derivation, height]
      · rw [Statement.passage_doCall]
        exact (connectsDo.append <| connectsName.append <|
          connectsCall.append <|
          connectsEnd.append connectsPop).inside .doStatement

theorem recognizes_returnStatement (known : scope.Declares declared)
    (run : (returnStatement scope room).run before = .ok () behind)
    (used : NumbersUsed) :
    ∃ one : Statement, one.Admissible declared ∧
      one.derivation.height ≤ room ∧
      (one.passage scope used).Connects before behind := by
  cases room with
  | zero =>
      rw [returnStatement] at run
      exact absurd run tooDeep_ne_ok
  | succ room =>
      rw [returnStatement] at run
      obtain ⟨outside, inner, rfl⟩ := within_eq_ok_iff.mp run
      simp only [bind_eq_ok_iff, expectKeyword_eq_ok_iff] at inner
      obtain ⟨_, _, connectsReturn, _, _, peeked, branch⟩ := inner
      cases peeked
      split at branch
      next =>
        simp only [bind_eq_ok_iff, emit_eq_ok_iff,
          expectSymbol_eq_ok_iff] at branch
        obtain ⟨_, _, connectsPush, _, _, connectsEnd, connectsEmit⟩ :=
          branch
        refine ⟨.returnNothing, trivial, ?_, ?_⟩
        · simp [Statement.derivation]
        · rw [Statement.passage_returnNothing]
          exact (connectsReturn.append <| connectsPush.append <|
            connectsEnd.append connectsEmit).inside .returnStatement
      next =>
        simp only [bind_eq_ok_iff, emit_eq_ok_iff,
          expectSymbol_eq_ok_iff] at branch
        obtain ⟨_, _, readValue, _, _, connectsEnd, connectsEmit⟩ :=
          branch
        obtain ⟨value, admissible, height, connectsValue⟩ :=
          recognizes_node known readValue
        refine ⟨.returnValue value, admissible, ?_, ?_⟩
        · simp [Statement.derivation, height]
        · rw [Statement.passage_returnValue]
          exact (connectsReturn.append <| connectsValue.append <|
            connectsEnd.append connectsEmit).inside .returnStatement

/-! ## Conditions and braces -/

theorem recognizes_condition (known : scope.Declares declared)
    {otherwise : String}
    (run : (condition scope room otherwise).run before = .ok () behind) :
    ∃ tested : Expression, tested.Admissible declared ∧
      tested.derivation.height ≤ room ∧
      (tested.conditionPassage scope otherwise).Connects before
        behind := by
  simp only [condition, bind_eq_ok_iff, emit_eq_ok_iff,
    expectSymbol_eq_ok_iff] at run
  obtain ⟨_, _, connectsLeft, _, _, readTested, _, _, connectsRight,
    connectsJump⟩ := run
  obtain ⟨tested, admissible, height, connectsTested⟩ :=
    recognizes_node known readTested
  exact ⟨tested, admissible, height,
    connectsLeft.append <| connectsTested.append <|
      connectsRight.append connectsJump⟩

/-- What a pass accepts with some room is a sequence of statements. -/
def RecognizesStatements (scope : Scope) (declared : List String)
    (room : Nat) : Prop :=
  ∀ {before behind : PassState},
    (statements scope room).run before = .ok () behind →
    ∃ body : Statements, body.Admissible declared ∧
      heightOfList body.children < room ∧
      ((body.passage scope before.labels.used).inside
        .statements).Connects before behind

section Step

variable (recognizes : RecognizesStatements scope declared room)
include recognizes

theorem RecognizesStatements.braced
    (run : (Pass.braced (statements scope room)).run before =
      .ok () behind) :
    ∃ body : Statements, body.Admissible declared ∧
      heightOfList body.children < room ∧
      (body.bracedPassage scope before.labels.used).Connects before
        behind := by
  simp only [Pass.braced, bind_eq_ok_iff, expectSymbol_eq_ok_iff] at run
  obtain ⟨_, between, connectsLeft, _, _, readBody, connectsRight⟩ := run
  obtain ⟨body, admissible, height, connectsBody⟩ := recognizes readBody
  have sameUsed : between.labels.used = before.labels.used := by
    simp [connectsLeft.labels_eq]
  rw [sameUsed] at connectsBody
  exact ⟨body, admissible, height,
    connectsLeft.append (connectsBody.append connectsRight)⟩

theorem recognizes_ifStatement (known : scope.Declares declared)
    (run : (ifStatement scope (room + 1)).run before = .ok () behind) :
    ∃ one : Statement, one.Admissible declared ∧
      one.derivation.height ≤ room + 1 ∧
      (one.passage scope before.labels.used).Connects before behind := by
  rw [ifStatement] at run
  obtain ⟨outside, inner, rfl⟩ := within_eq_ok_iff.mp run
  simp only [bind_eq_ok_iff, expectKeyword_eq_ok_iff,
    takeLabels_eq_ok_iff, emit_eq_ok_iff] at inner
  obtain ⟨_, behindIf, connectsIf, _, _, ⟨rfl, connectsNumber⟩, _,
    behindTested, readTested, _, behindBody, readBody, _, behindLabels,
    connectsLabels, _, _, peeked, branch⟩ := inner
  obtain ⟨tested, testedAdmissible, testedHeight, connectsTested⟩ :=
    recognizes_condition known readTested
  obtain ⟨body, bodyAdmissible, bodyHeight, connectsBody⟩ :=
    recognizes.braced readBody
  have usedIf : behindIf.labels.used = before.labels.used := by
    simp [connectsIf.used_eq]
  have usedTested :
      behindTested.labels.used = before.labels.used.next .if := by
    simp only [connectsTested.used_eq, connectsNumber.used_eq, usedIf,
      Expression.numbers_conditionPassage, numbers_numbered]
    rfl
  rw [usedIf] at connectsTested connectsLabels branch
  rw [usedTested] at connectsBody
  have connectsHead :=
    connectsIf.append <| connectsNumber.append <| connectsTested.append <|
      connectsBody.append connectsLabels
  cases peeked
  split at branch
  next found =>
    simp only [bind_eq_ok_iff, emit_eq_ok_iff] at branch
    obtain ⟨_, behindElse, readElse, _, _, readOtherwise, connectsEnd⟩ :=
      branch
    have connectsElse :=
      (advance_eq_ok_iff (eq_of_beq found)).mp readElse
    obtain ⟨otherwise, admissible, height, connectsOtherwise⟩ :=
      recognizes.braced readOtherwise
    have usedElse :
        behindElse.labels.used =
          (before.labels.used.next .if).behind body := by
      simp only [connectsElse.used_eq, connectsLabels.used_eq,
        connectsBody.used_eq, usedTested, numbers_leaf, numbers_emitted,
        Statements.numbers_bracedPassage]
      rfl
    rw [usedElse] at connectsOtherwise
    refine ⟨.ifElse tested body otherwise,
      ⟨testedAdmissible, bodyAdmissible, admissible⟩, ?_, ?_⟩
    · simp [Statement.derivation, testedHeight,
        Nat.succ_le_of_lt bodyHeight, Nat.succ_le_of_lt height]
    · rw [Statement.passage_ifElse]
      have connectsAll := connectsHead.append <|
        connectsElse.append (connectsOtherwise.append connectsEnd)
      simp only [append_assoc] at connectsAll
      exact connectsAll.inside .ifStatement
  next =>
    refine ⟨.ifThen tested body, ⟨testedAdmissible, bodyAdmissible⟩, ?_,
      ?_⟩
    · simp [Statement.derivation, testedHeight,
        Nat.succ_le_of_lt bodyHeight]
    · rw [Statement.passage_ifThen]
      have connectsAll := connectsHead.append (emit_eq_ok_iff.mp branch)
      simp only [append_assoc] at connectsAll
      exact connectsAll.inside .ifStatement

theorem recognizes_whileStatement (known : scope.Declares declared)
    (run : (whileStatement scope (room + 1)).run before =
      .ok () behind) :
    ∃ one : Statement, one.Admissible declared ∧
      one.derivation.height ≤ room + 1 ∧
      (one.passage scope before.labels.used).Connects before behind := by
  rw [whileStatement] at run
  obtain ⟨outside, inner, rfl⟩ := within_eq_ok_iff.mp run
  simp only [bind_eq_ok_iff, expectKeyword_eq_ok_iff,
    takeLabels_eq_ok_iff, emit_eq_ok_iff] at inner
  obtain ⟨_, behindWhile, connectsWhile, _, _, ⟨rfl, connectsNumber⟩, _, _,
    connectsStart, _, behindTested, readTested, _, _, readBody,
    connectsLabels⟩ := inner
  obtain ⟨tested, testedAdmissible, testedHeight, connectsTested⟩ :=
    recognizes_condition known readTested
  obtain ⟨body, bodyAdmissible, bodyHeight, connectsBody⟩ :=
    recognizes.braced readBody
  have usedWhile : behindWhile.labels.used = before.labels.used := by
    simp [connectsWhile.used_eq]
  have usedTested :
      behindTested.labels.used = before.labels.used.next .while := by
    simp only [connectsTested.used_eq, connectsStart.used_eq,
      connectsNumber.used_eq, usedWhile, numbers_emitted,
      Expression.numbers_conditionPassage, numbers_numbered]
    rfl
  rw [usedWhile] at connectsStart connectsTested connectsLabels
  rw [usedTested] at connectsBody
  refine ⟨.whileLoop tested body, ⟨testedAdmissible, bodyAdmissible⟩, ?_,
    ?_⟩
  · simp [Statement.derivation, testedHeight,
      Nat.succ_le_of_lt bodyHeight]
  · rw [Statement.passage_whileLoop]
    exact (connectsWhile.append <| connectsNumber.append <|
      connectsStart.append <| connectsTested.append <|
      connectsBody.append connectsLabels).inside .whileStatement

/-- What a round of a sequence of statements accepts is a statement. -/
theorem recognizes_statement (known : scope.Declares declared)
    {word : StatementWord}
    (run : (statement scope (room + 1) word ()).run before =
      .ok () behind) :
    ∃ one : Statement, one.Admissible declared ∧
      one.derivation.height ≤ room + 1 ∧
      (one.passage scope before.labels.used).Connects before behind := by
  cases word with
  | «let» =>
      have readIt :
          (letStatement scope (room + 1)).run before = .ok () behind := run
      exact recognizes_letStatement known readIt _
  | «if» => exact recognizes_ifStatement recognizes known run
  | «while» => exact recognizes_whileStatement recognizes known run
  | «do» =>
      have readIt :
          (doStatement scope (room + 1)).run before = .ok () behind := run
      exact recognizes_doStatement known readIt _
  | «return» =>
      have readIt :
          (returnStatement scope (room + 1)).run before = .ok () behind := run
      exact recognizes_returnStatement known readIt _

end Step

/-! ## Sequences of statements -/

theorem tooDeep_statement {word : StatementWord} :
    (statement scope 0 word ()).run before ≠ .ok () behind := by
  cases word
  all_goals
    simp only [statement, letStatement, ifStatement, whileStatement,
      doStatement, returnStatement]
    exact tooDeep_ne_ok

/-- Rounds that read one statement each read a sequence of statements. -/
theorem recognizes_rounds
    (recognizesOne : ∀ {word : StatementWord} {before behind : PassState},
      (statement scope room word ()).run before = .ok () behind →
      ∃ one : Statement, one.Admissible declared ∧
        one.derivation.height ≤ room ∧
        (one.passage scope before.labels.used).Connects before behind)
    (run : (repeatWhile StatementWord.ofToken? (statement scope room)
      ()).run before = .ok () behind) :
    ∃ body : Statements, body.Admissible declared ∧
      heightOfList body.children ≤ room ∧
      (body.passage scope before.labels.used).Connects before behind := by
  refine of_repeatWhile
    (motive := fun _ before _ behind =>
      ∃ body : Statements, body.Admissible declared ∧
        heightOfList body.children ≤ room ∧
        (body.passage scope before.labels.used).Connects before behind)
    ?_ ?_ run
  · intro _ state
    refine ⟨.nil, trivial, Nat.zero_le _, ?_⟩
    rw [Statements.passage_nil]
    exact .refl state
  · intro word _ before _ between _ behind _ round later
    obtain ⟨first, firstAdmissible, firstHeight, connectsFirst⟩ :=
      recognizesOne round
    obtain ⟨others, admissible, height, connects⟩ := later
    refine ⟨.cons first others, ⟨firstAdmissible, admissible⟩, ?_, ?_⟩
    · simp [Statements.children, firstHeight, height]
    · rw [Statements.passage_cons]
      rw [connectsFirst.used_eq] at connects
      exact connectsFirst.append connects

theorem recognizesStatements (known : scope.Declares declared) :
    ∀ room, RecognizesStatements scope declared room
  | 0 => by
      intro run
      rw [statements] at run
      exact absurd run tooDeep_ne_ok
  | room + 1 => by
      intro run
      rw [statements_succ] at run
      obtain ⟨outside, inner, rfl⟩ := within_eq_ok_iff.mp run
      have recognizesOne : ∀ {word : StatementWord}
          {before behind : PassState},
          (statement scope room word ()).run before = .ok () behind →
          ∃ one : Statement, one.Admissible declared ∧
            one.derivation.height ≤ room ∧
            (one.passage scope before.labels.used).Connects before
              behind := by
        intro word before behind round
        cases room with
        | zero => exact absurd round tooDeep_statement
        | succ room =>
            exact recognizes_statement (recognizesStatements known room)
              known round
      obtain ⟨body, admissible, height, connects⟩ :=
        recognizes_rounds recognizesOne inner
      exact ⟨body, admissible, Nat.lt_succ_of_le height,
        connects.inside .statements⟩

end JackToVm.Pass
