import JackToVm.Proofs.ExpressionReading

/-!
# Recognizing expressions

Whatever a pass accepts as an expression is one: there is an admissible
expression, within the room that was given, whose passage connects the states
before and behind. The proof is by induction on the room; what a pass does with
some room is found from what it does with less room inside of a node.
-/

namespace JackToVm.Pass

open Passage
open DerivationTree (heightOfList)

/-- What a pass accepts with some room is an expression, a term or an argument
list. -/
structure RecognizesExpressions (scope : Scope) (declared : List String)
    (room : Nat) : Prop where
  expression : ∀ {before behind : PassState},
    (expression scope room).run before = .ok () behind →
    ∃ whole : Expression, whole.Admissible declared ∧
      heightOfList whole.children < room ∧
      ((whole.passage scope).inside .expression).Connects before behind
  term : ∀ {before behind : PassState},
    (term scope room).run before = .ok () behind →
    ∃ operand : Term, operand.Admissible declared ∧
      heightOfList operand.children < room ∧
      ((operand.passage scope).inside .term).Connects before behind
  expressionList : ∀ {target : String} {count : Nat}
    {before behind : PassState},
    (expressionList scope room target).run before = .ok count behind →
    ∃ given : ExpressionList, given.Admissible declared ∧
      heightOfList given.children < room ∧ given.length = count ∧
      ((given.passage scope).inside .expressionList).Connects before behind

variable {scope : Scope} {declared : List String} {room : Nat}
variable {before behind : PassState}

theorem recognizesExpressions_zero :
    RecognizesExpressions scope declared 0 where
  expression := by
    intro before behind run
    rw [Pass.expression] at run
    exact absurd run tooDeep_ne_ok
  term := by
    intro before behind run
    rw [Pass.term, run_peek_bind] at run
    split at run
    · obtain ⟨_, _, refused, _⟩ := bind_eq_ok_iff.mp run
      exact absurd refused unexpected_ne_ok
    · exact absurd run tooDeep_ne_ok
  expressionList := by
    intro target count before behind run
    rw [Pass.expressionList] at run
    exact absurd run tooDeep_ne_ok

/-! ## Calls -/

/-- The target of a call is that of every call with the same beginning,
whatever its arguments are. -/
theorem of_callTarget {name target : String} {receivers : Nat}
    (run : (callTarget scope name).run before =
      .ok (target, receivers) behind) :
    ∃ call : ExpressionList → SubroutineCall, ∀ given,
      (call given).firstName = name ∧ (call given).arguments = given ∧
        (call given).target scope = target ∧
        (call given).receivers scope = receivers ∧
        ((call given).opening scope).Connects before behind := by
  rw [callTarget, run_nextIs_bind] at run
  split at run
  · have dotted : before.next? = some (.symbol .dot) :=
      eq_of_beq ‹_›
    obtain ⟨_, afterDot, readDot, run⟩ := bind_eq_ok_iff.mp run
    have connectsDot := (advance_eq_ok_iff dotted).mp readDot
    obtain ⟨called, afterName, readName, run⟩ := bind_eq_ok_iff.mp run
    have connectsName := expectName_eq_ok_iff.mp readName
    refine ⟨.through name called, fun given => ?_⟩
    simp only [SubroutineCall.target, SubroutineCall.receivers,
      SubroutineCall.opening, Scope.read]
    split at run
    next receiver resolved =>
      obtain ⟨_, _, pushed, run⟩ := bind_eq_ok_iff.mp run
      obtain ⟨named, rfl⟩ := pure_eq_ok_iff.mp run
      cases named
      have connectsPush := emit_eq_ok_iff.mp pushed
      rw [resolved]
      exact ⟨rfl, rfl, rfl, rfl,
        connectsDot.append (connectsName.append connectsPush)⟩
    next resolved =>
      obtain ⟨named, rfl⟩ := pure_eq_ok_iff.mp run
      cases named
      rw [resolved]
      exact ⟨rfl, rfl, rfl, rfl,
        connectsDot.append (connectsName.append (.refl _))⟩
  · obtain ⟨_, _, pushed, run⟩ := bind_eq_ok_iff.mp run
    obtain ⟨named, rfl⟩ := pure_eq_ok_iff.mp run
    cases named
    exact ⟨.own name, fun given =>
      ⟨rfl, rfl, rfl, rfl, emit_eq_ok_iff.mp pushed⟩⟩

theorem RecognizesExpressions.call
    (recognizes : RecognizesExpressions scope declared room)
    (known : scope.Declares declared) {name : String}
    (run : (subroutineCall scope (Pass.expressionList scope room) name).run
      before = .ok () behind) :
    ∃ call : SubroutineCall, call.firstName = name ∧
      call.Admissible declared ∧ heightOfList call.children ≤ room ∧
      (call.passageBehindName scope).Connects before behind := by
  obtain ⟨⟨target, receivers⟩, _, readTarget, run⟩ :=
    bind_eq_ok_iff.mp run
  obtain ⟨_, _, readLeft, run⟩ := bind_eq_ok_iff.mp run
  obtain ⟨count, _, readArguments, run⟩ := bind_eq_ok_iff.mp run
  obtain ⟨_, _, readRight, run⟩ := bind_eq_ok_iff.mp run
  obtain ⟨_, _, added, written⟩ := bind_eq_ok_iff.mp run
  obtain ⟨few, rfl, rfl⟩ := addArguments_eq_ok_iff.mp added
  obtain ⟨given, admissible, height, rfl, connectsArguments⟩ :=
    recognizes.expressionList readArguments
  obtain ⟨call, shape⟩ := of_callTarget readTarget
  obtain ⟨sameName, sameArguments, rfl, rfl, connectsTarget⟩ :=
    shape given
  refine ⟨call given, sameName, ?_, ?_, ?_⟩
  · rw [SubroutineCall.admissible_iff known, sameArguments]
    exact ⟨few, admissible⟩
  · rw [SubroutineCall.height_children, sameArguments]
    exact height
  · rw [SubroutineCall.passageBehindName, sameArguments]
    exact connectsTarget.append <|
      (expectSymbol_eq_ok_iff.mp readLeft).append <|
        connectsArguments.append <|
          (expectSymbol_eq_ok_iff.mp readRight).append <|
            emit_eq_ok_iff.mp written

/-! ## Repetitions -/

/-- Operators that are read behind an expression make a longer one. -/
theorem RecognizesExpressions.operations
    (recognizes : RecognizesExpressions scope declared room)
    {start : PassState}
    (run : (Pass.operations scope room).run before = .ok () behind) :
    ∀ whole : Expression, whole.Admissible declared →
      heightOfList whole.children ≤ room →
      (whole.passage scope).Connects start before →
      ∃ longer : Expression, longer.Admissible declared ∧
        heightOfList longer.children ≤ room ∧
        (longer.passage scope).Connects start behind := by
  refine of_repeatWhile
    (motive := fun _ before _ behind => ∀ whole : Expression,
      whole.Admissible declared → heightOfList whole.children ≤ room →
      (whole.passage scope).Connects start before →
      ∃ longer : Expression, longer.Admissible declared ∧
        heightOfList longer.children ≤ room ∧
        (longer.passage scope).Connects start behind) ?_ ?_ run
  · intro _ state whole admissible height connects
    exact ⟨whole, admissible, height, connects⟩
  · intro operator _ before _ between _ behind begins round later whole
      admissible height connects
    obtain ⟨token, next, selected⟩ := Option.bind_eq_some_iff.mp begins
    rw [Token.binaryOperator?_eq_some_iff] at selected
    subst token
    obtain ⟨_, _, readOperator, round⟩ := bind_eq_ok_iff.mp round
    obtain ⟨_, _, readTerm, written⟩ := bind_eq_ok_iff.mp round
    obtain ⟨operand, operandAdmissible, operandHeight, connectsTerm⟩ :=
      recognizes.term readTerm
    have connectsRound :=
      ((advance_eq_ok_iff next).mp readOperator).append <|
        connectsTerm.append (emit_eq_ok_iff.mp written)
    refine later (.binary whole operator operand)
      ⟨admissible, operandAdmissible⟩ ?_ ?_
    · simp only [Expression.children, DerivationTree.heightOfList_append,
        heightOfList, DerivationTree.height,
        DerivationTree.height_symbol]
      omega
    · rw [Expression.passage_binary]
      exact connects.append connectsRound

theorem RecognizesExpressions.argument
    (recognizes : RecognizesExpressions scope declared room)
    {target : String} {count total : Nat}
    (run : (Pass.argument scope room target count).run before =
      .ok total behind) :
    ∃ given : Expression, given.Admissible declared ∧
      heightOfList given.children < room ∧ total = count + 1 ∧
      ((given.passage scope).inside .expression).Connects before
        behind := by
  obtain ⟨_, _, readGiven, added⟩ := bind_eq_ok_iff.mp run
  obtain ⟨_, rfl, rfl⟩ := addArguments_eq_ok_iff.mp added
  obtain ⟨given, admissible, height, connects⟩ :=
    recognizes.expression readGiven
  exact ⟨given, admissible, height, rfl, connects⟩

theorem RecognizesExpressions.otherArguments
    (recognizes : RecognizesExpressions scope declared room)
    {target : String} {count total : Nat}
    (run : (repeatWhile (exactly (.symbol .comma))
      (argumentBehindComma scope room target) count).run before =
        .ok total behind) :
    ∃ others : ExpressionList, others.Admissible declared ∧
      heightOfList others.continued ≤ room ∧
      total = count + others.length ∧
      (others.passageContinued scope).Connects before behind := by
  refine of_repeatWhile
    (motive := fun count before total behind =>
      ∃ others : ExpressionList, others.Admissible declared ∧
        heightOfList others.continued ≤ room ∧
        total = count + others.length ∧
        (others.passageContinued scope).Connects before behind) ?_ ?_ run
  · intro count state
    exact ⟨.nil, trivial, Nat.zero_le _, rfl, .refl state⟩
  · intro _ count before _ between total behind begins round later
    obtain ⟨others, admissible, height, rfl, connects⟩ := later
    obtain ⟨token, next, selected⟩ := Option.bind_eq_some_iff.mp begins
    rw [exactly_eq_some_iff] at selected
    subst token
    obtain ⟨_, _, readComma, round⟩ := bind_eq_ok_iff.mp round
    obtain ⟨first, firstAdmissible, firstHeight, rfl, connectsFirst⟩ :=
      recognizes.argument round
    refine ⟨.cons first others, ⟨firstAdmissible, admissible⟩, ?_, ?_, ?_⟩
    · simp only [ExpressionList.continued, heightOfList,
        DerivationTree.height, DerivationTree.height_symbol]
      omega
    · rw [ExpressionList.length]
      omega
    · rw [ExpressionList.passageContinued_cons]
      exact (((advance_eq_ok_iff next).mp readComma).append
        connectsFirst).append connects

/-! ## Every construct is recognized -/

section Step

variable (recognizes : RecognizesExpressions scope declared room)
include recognizes

theorem recognizes_expression
    (run : (expression scope (room + 1)).run before = .ok () behind) :
    ∃ whole : Expression, whole.Admissible declared ∧
      heightOfList whole.children < room + 1 ∧
      ((whole.passage scope).inside .expression).Connects before
        behind := by
  rw [expression_succ] at run
  obtain ⟨outside, inner, rfl⟩ := within_eq_ok_iff.mp run
  obtain ⟨_, _, readTerm, readOperations⟩ := bind_eq_ok_iff.mp inner
  obtain ⟨only, termAdmissible, termHeight, connectsTerm⟩ :=
    recognizes.term readTerm
  rw [← Expression.passage_term] at connectsTerm
  have heightFirst :
      heightOfList (Expression.term only).children ≤ room := by
    simp only [Expression.children, heightOfList, DerivationTree.height]
    omega
  obtain ⟨whole, admissible, height, connects⟩ :=
    recognizes.operations readOperations (.term only) termAdmissible
      heightFirst connectsTerm
  exact ⟨whole, admissible, Nat.lt_succ_of_le height,
    connects.inside .expression⟩

theorem recognizes_expressionList {target : String} {count : Nat}
    (run : (expressionList scope (room + 1) target).run before =
      .ok count behind) :
    ∃ given : ExpressionList, given.Admissible declared ∧
      heightOfList given.children < room + 1 ∧ given.length = count ∧
      ((given.passage scope).inside .expressionList).Connects before
        behind := by
  rw [expressionList_succ] at run
  obtain ⟨outside, inner, rfl⟩ := within_eq_ok_iff.mp run
  rw [run_nextIs_bind] at inner
  split at inner
  · obtain ⟨rfl, rfl⟩ := pure_eq_ok_iff.mp inner
    exact ⟨.nil, trivial, Nat.succ_pos _, rfl,
      (Passage.Connects.refl _).inside .expressionList⟩
  · obtain ⟨_, _, readFirst, readOthers⟩ := bind_eq_ok_iff.mp inner
    obtain ⟨first, firstAdmissible, firstHeight, rfl, connectsFirst⟩ :=
      recognizes.argument readFirst
    obtain ⟨others, admissible, height, rfl, connects⟩ :=
      recognizes.otherArguments readOthers
    refine ⟨.cons first others, ⟨firstAdmissible, admissible⟩, ?_, ?_, ?_⟩
    · simp only [ExpressionList.children, heightOfList,
        DerivationTree.height]
      omega
    · rw [ExpressionList.length]
      omega
    · rw [ExpressionList.passage_cons]
      exact (connectsFirst.append connects).inside .expressionList

/-- What stands behind a name decides what the term is. -/
theorem recognizes_identifier (known : scope.Declares declared)
    {name : String} (next : before.next? = some (.identifier name))
    (run : (do
      advance
      match ← peek with
      | some (.symbol .leftBracket) =>
          let array ← require scope name
          advance
          emit [array.push]
          expression scope room
          expectSymbol .rightBracket
          emit (.operation .add :: Fragment.load)
      | some (.symbol .leftParen) | some (.symbol .dot) =>
          subroutineCall scope (expressionList scope room) name
      | _ => emit [(← require scope name).push] : Pass Unit).run before =
        .ok () behind) :
    ∃ operand : Term, operand.Admissible declared ∧
      heightOfList operand.children ≤ room ∧
      (operand.passage scope).Connects before behind := by
  obtain ⟨_, behindName, readName, decided⟩ := bind_eq_ok_iff.mp run
  have connectsName := (advance_eq_ok_iff next).mp readName
  have asCall
      (call : (subroutineCall scope (expressionList scope room) name).run
        behindName = .ok () behind) :
      ∃ operand : Term, operand.Admissible declared ∧
        heightOfList operand.children ≤ room ∧
        (operand.passage scope).Connects before behind := by
    obtain ⟨target, rfl, admissible, height, connects⟩ :=
      recognizes.call known call
    refine ⟨.call target, admissible, height, ?_⟩
    rw [SubroutineCall.passage_call]
    exact connectsName.append connects
  rw [run_peek_bind] at decided
  split at decided
  next bracket =>
    simp only [bind_eq_ok_iff, require_eq_ok_iff,
      expectSymbol_eq_ok_iff, emit_eq_ok_iff] at decided
    obtain ⟨resolved, _, ⟨found, rfl⟩, _, _, readLeft, _, _, connectsPush,
      _, _, readIndex, _, _, connectsRight, connectsLoad⟩ := decided
    have connectsLeft := (advance_eq_ok_iff bracket).mp readLeft
    obtain ⟨index, admissible, height, connectsIndex⟩ :=
      recognizes.expression readIndex
    refine ⟨.element name index,
      ⟨Scope.mem_of_resolve? known found, admissible⟩, ?_, ?_⟩
    · simp only [Term.children, heightOfList, DerivationTree.height,
        DerivationTree.height_symbol, DerivationTree.height_name]
      omega
    · rw [Term.passage_element, Scope.read_of_resolve? found]
      exact connectsName.append <| connectsLeft.append <|
        connectsPush.append <| connectsIndex.append <|
          connectsRight.append connectsLoad
  next => exact asCall decided
  next => exact asCall decided
  next =>
    simp only [bind_eq_ok_iff, require_eq_ok_iff, emit_eq_ok_iff]
      at decided
    obtain ⟨resolved, _, ⟨found, rfl⟩, connectsPush⟩ := decided
    refine ⟨.variable name, Scope.mem_of_resolve? known found,
      Nat.zero_le _, ?_⟩
    rw [Term.passage_variable, Scope.read_of_resolve? found]
    exact connectsName.append connectsPush

theorem recognizes_term (known : scope.Declares declared)
    (run : (term scope (room + 1)).run before = .ok () behind) :
    ∃ operand : Term, operand.Admissible declared ∧
      heightOfList operand.children < room + 1 ∧
      ((operand.passage scope).inside .term).Connects before behind := by
  rw [term, run_peek_bind] at run
  split at run
  next => exact absurd run unexpected_ne_ok
  next first next =>
    obtain ⟨outside, inner, rfl⟩ := within_eq_ok_iff.mp run
    have nextInside : (before.enter .term).next? = some first := next
    suffices found :
        ∃ operand : Term, operand.Admissible declared ∧
          heightOfList operand.children ≤ room ∧
          (operand.passage scope).Connects (before.enter .term)
            outside by
      obtain ⟨operand, admissible, height, connects⟩ := found
      exact ⟨operand, admissible, Nat.lt_succ_of_le height,
        connects.inside .term⟩
    split at inner
    next value =>
      obtain ⟨_, _, read, written⟩ := bind_eq_ok_iff.mp inner
      refine ⟨.integer value, trivial, Nat.zero_le _, ?_⟩
      rw [Term.passage_integer]
      exact ((advance_eq_ok_iff nextInside).mp read).append
        (emit_eq_ok_iff.mp written)
    next content =>
      obtain ⟨_, _, read, written⟩ := bind_eq_ok_iff.mp inner
      split at written
      next short =>
        refine ⟨.string content, short, Nat.zero_le _, ?_⟩
        rw [Term.passage_string]
        exact ((advance_eq_ok_iff nextInside).mp read).append
          (emit_eq_ok_iff.mp written)
      next => exact absurd written throw_ne_ok
    next reserved =>
      split at inner
      next word selected =>
        rw [KeywordConstant.ofKeyword?_eq_some_iff] at selected
        subst reserved
        obtain ⟨_, _, read, written⟩ := bind_eq_ok_iff.mp inner
        refine ⟨.constant word, trivial, Nat.zero_le _, ?_⟩
        rw [Term.passage_constant]
        exact ((advance_eq_ok_iff nextInside).mp read).append
          (emit_eq_ok_iff.mp written)
      next => exact absurd inner unexpected_ne_ok
    next =>
      simp only [bind_eq_ok_iff, expectSymbol_eq_ok_iff] at inner
      obtain ⟨_, _, read, _, _, readInner, connectsRight⟩ := inner
      have connectsLeft := (advance_eq_ok_iff nextInside).mp read
      obtain ⟨grouped, admissible, height, connects⟩ :=
        recognizes.expression readInner
      refine ⟨.group grouped, admissible, ?_, ?_⟩
      · simp only [Term.children, heightOfList, DerivationTree.height,
          DerivationTree.height_symbol]
        omega
      · rw [Term.passage_group]
        exact connectsLeft.append (connects.append connectsRight)
    next sign _ =>
      split at inner
      next operator selected =>
        rw [Symbol.unaryOperator?_eq_some_iff] at selected
        subst sign
        simp only [bind_eq_ok_iff, emit_eq_ok_iff] at inner
        obtain ⟨_, _, read, _, _, readOperand, connectsWritten⟩ := inner
        have connectsSign := (advance_eq_ok_iff nextInside).mp read
        obtain ⟨operand, admissible, height, connects⟩ :=
          recognizes.term readOperand
        refine ⟨.unary operator operand, admissible, ?_, ?_⟩
        · simp only [Term.children, heightOfList, DerivationTree.height,
            DerivationTree.height_symbol]
          omega
        · rw [Term.passage_unary]
          exact connectsSign.append (connects.append connectsWritten)
      next => exact absurd inner unexpected_ne_ok
    next name =>
      exact recognizes_identifier recognizes known nextInside inner

end Step

theorem recognizesExpressions (known : scope.Declares declared) :
    ∀ room, RecognizesExpressions scope declared room
  | 0 => recognizesExpressions_zero
  | room + 1 => by
      have recognizes := recognizesExpressions known room
      exact ⟨recognizes_expression recognizes,
        recognizes_term recognizes known,
        recognizes_expressionList recognizes⟩

end JackToVm.Pass
