import JackToVm.Proofs.ExpressionPassage

/-!
# Reading expressions

A pass reads an admissible expression by the passage of that expression, if
there is room for its nodes and the token behind it does not continue it. An
operator continues an expression, and what could make more of a name than a
variable continues a term.
-/

namespace JackToVm

open Passage
open DerivationTree (heightOfList)

/-- A name in front of this token is a variable. -/
def EndsTerm (next : Option Token) : Prop :=
  next ≠ some (.symbol .leftBracket) ∧ next ≠ some (.symbol .leftParen) ∧
    next ≠ some (.symbol .dot)

/-- An expression in front of this token is complete. -/
def EndsExpression (next : Option Token) : Prop :=
  EndsTerm next ∧ next.bind Token.binaryOperator? = none

instance (next : Option Token) : Decidable (EndsTerm next) :=
  inferInstanceAs (Decidable (_ ∧ _ ∧ _))

instance (next : Option Token) : Decidable (EndsExpression next) :=
  inferInstanceAs (Decidable (_ ∧ _))

namespace EndsExpression

theorem comma : EndsExpression (some (.symbol .comma)) := by decide

theorem rightBracket : EndsExpression (some (.symbol .rightBracket)) := by
  decide

theorem rightParen : EndsExpression (some (.symbol .rightParen)) := by
  decide

theorem semicolon : EndsExpression (some (.symbol .semicolon)) := by
  decide

end EndsExpression

theorem BinaryOperator.endsTerm (operator : BinaryOperator) :
    EndsTerm (some (.symbol operator.symbol)) := by
  cases operator <;> decide

theorem Token.binaryOperator?_eq_some_iff {token : Token}
    {operator : BinaryOperator} :
    token.binaryOperator? = some operator ↔
      token = .symbol operator.symbol := by
  cases token with
  | symbol sign =>
      rw [Token.binaryOperator?, Symbol.binaryOperator?_eq_some_iff,
        Token.symbol.injEq]
  | _ => simp [Token.binaryOperator?]

theorem BinaryOperator.selected (operator : BinaryOperator) :
    (Token.symbol operator.symbol).binaryOperator? = some operator :=
  Token.binaryOperator?_eq_some_iff.mpr rfl

theorem KeywordConstant.selected (word : KeywordConstant) :
    ofKeyword? word.keyword = some word :=
  ofKeyword?_eq_some_iff.mpr rfl

namespace Scope

variable {scope : Scope} {declared : List String} {name : String}

theorem exists_resolve? (known : scope.Declares declared)
    (member : name ∈ declared) :
    ∃ resolved, scope.resolve? name = some resolved :=
  Option.isSome_iff_exists.mp ((known name).mpr member)

theorem mem_of_resolve? {resolved : Variable}
    (known : scope.Declares declared)
    (found : scope.resolve? name = some resolved) : name ∈ declared :=
  (known name).mp (Option.isSome_iff_exists.mpr ⟨resolved, found⟩)

theorem read_of_resolve? {resolved : Variable}
    (found : scope.resolve? name = some resolved) :
    scope.read name = [resolved.push] := by
  rw [read, found]
  rfl

theorem write_of_resolve? {resolved : Variable}
    (found : scope.resolve? name = some resolved) :
    scope.write name = [resolved.pop] := by
  rw [write, found]
  rfl

end Scope

namespace SubroutineCall

theorem admissible_iff {scope : Scope} {declared : List String}
    (known : scope.Declares declared) (call : SubroutineCall) :
    call.Admissible declared ↔
      call.arguments.length + call.receivers scope ≤ maxCount ∧
        call.arguments.Admissible declared := by
  cases call with
  | own called given => rfl
  | through owner called given =>
      simp only [SubroutineCall.Admissible, receivers, receiverCount,
        known owner]
      rfl

theorem height_children (call : SubroutineCall) :
    heightOfList call.children =
      heightOfList call.arguments.children + 1 := by
  cases call <;>
    simp [children, arguments, heightOfList, DerivationTree.height]

end SubroutineCall

/-- The first argument ends before a comma or before the parenthesis. -/
theorem ExpressionList.endsExpression {scope : Scope} {rest : List Token}
    (others : ExpressionList)
    (closes : rest.head? = some (.symbol .rightParen)) :
    EndsExpression
      ((others.passageContinued scope).tokens ++ rest).head? := by
  cases others with
  | nil =>
      rw [ExpressionList.passageContinued_nil, tokens_empty,
        List.nil_append, closes]
      exact EndsExpression.rightParen
  | cons first others =>
      rw [ExpressionList.passageContinued_cons]
      exact EndsExpression.comma

namespace Pass

variable {scope : Scope} {declared : List String}
variable {labels : LabelCounters} {rest : List Token}

theorem Reads.require {resolved : Variable} {name : String}
    {next : Variable → Pass Unit} {passage : Passage}
    (found : scope.resolve? name = some resolved)
    (reads : Reads (next resolved) labels passage rest ()) :
    Reads (Pass.require scope name >>= next) labels passage rest () :=
  Reads.bind_of_run
    (fun _ => require_eq_ok_iff.mpr ⟨found, rfl⟩) reads

theorem Reads.addArguments {target : String} {count more : Nat}
    (few : count + more ≤ maxCount) :
    Reads (Pass.addArguments target count more) labels .empty rest
      (count + more) := by
  rw [Pass.addArguments, if_pos few]
  exact Reads.pure _

/-! ## Calls -/

theorem Reads.callTarget (call : SubroutineCall)
    (opens : rest.head? = some (.symbol .leftParen)) :
    Reads (Pass.callTarget scope call.firstName) labels
      (call.opening scope) rest
      (call.target scope, call.receivers scope) := by
  cases call with
  | own called given =>
      refine Reads.ite_of_next_ne ?_ (Reads.map (Reads.emit _))
      intro dotted
      have noToken :
          ((SubroutineCall.own called given).opening scope).tokens = [] :=
        rfl
      rw [noToken, List.nil_append, opens] at dotted
      cases dotted
  | through owner called given =>
      refine Reads.ite_of_next rfl ?_
      refine Reads.bind (Reads.advance _) ?_
      refine Reads.bind (Reads.expectName .subroutine called) ?_
      simp only [SubroutineCall.firstName, SubroutineCall.target,
        SubroutineCall.receivers, Scope.read]
      cases resolved : scope.resolve? owner with
      | some receiver => exact Reads.map (Reads.emit _)
      | none => exact Reads.pure _

theorem Reads.subroutineCall (call : SubroutineCall)
    {arguments : String → Pass Nat}
    (few : call.arguments.length + call.receivers scope ≤ maxCount)
    (reads : ∀ {labels rest},
      rest.head? = some (.symbol .rightParen) →
      Reads (arguments (call.target scope)) labels
        ((call.arguments.passage scope).inside .expressionList) rest
        call.arguments.length) :
    Reads (Pass.subroutineCall scope arguments call.firstName) labels
      (call.passageBehindName scope) rest () := by
  refine Reads.bind (Reads.callTarget call rfl) ?_
  refine Reads.bind (Reads.expectSymbol .leftParen) ?_
  refine Reads.bind (reads rfl) ?_
  refine Reads.bind (Reads.expectSymbol .rightParen) ?_
  exact Reads.bind_of_run
    (fun _ => addArguments_eq_ok_iff.mpr ⟨few, rfl, rfl⟩) (Reads.emit _)

/-! ## The parts of expressions and argument lists -/

/-- One more operator and the term behind it. -/
def operation (scope : Scope) (room : Nat) (operator : BinaryOperator)
    (_ : Unit) : Pass Unit := do
  advance
  term scope room
  emit [operator.command]

/-- All operators behind the first term of an expression. -/
def operations (scope : Scope) (room : Nat) : Pass Unit :=
  repeatWhile Token.binaryOperator? (operation scope room) ()

/-- One more argument. -/
def argument (scope : Scope) (room : Nat) (target : String) (count : Nat) :
    Pass Nat := do
  expression scope room
  addArguments target count 1

/-- One more argument behind a comma. -/
def argumentBehindComma (scope : Scope) (room : Nat) (target : String)
    (_ : Unit) (count : Nat) : Pass Nat := do
  advance
  argument scope room target count

theorem expression_succ (room : Nat) :
    expression scope (room + 1) =
      within .expression (do
        term scope room
        operations scope room) := by
  rw [expression]
  rfl

theorem expressionList_succ (room : Nat) (target : String) :
    expressionList scope (room + 1) target =
      within .expressionList (do
        if ← nextIs (.symbol .rightParen) then
          return 0
        else do
          let count ← argument scope room target 0
          repeatWhile (exactly (.symbol .comma))
            (argumentBehindComma scope room target) count) := by
  rw [expressionList]
  rfl

/-- An expression is read if its terms and operators are. -/
theorem Reads.expression {whole : Expression} {room : Nat}
    (height : heightOfList whole.children < room)
    (reads : ∀ {inner : Nat} {labels : LabelCounters} {others : Passage},
      heightOfList whole.children ≤ inner →
      EndsTerm (others.tokens ++ rest).head? →
      (∀ {labels}, ReadsLoop Token.binaryOperator?
        (operation scope inner) labels others rest () ()) →
      Reads (do term scope inner; operations scope inner) labels
        (whole.passage scope ++ others) rest ())
    (ends : EndsExpression rest.head?) :
    Reads (Pass.expression scope room) labels
      ((whole.passage scope).inside .expression) rest () := by
  cases room with
  | zero => omega
  | succ inner =>
      rw [expression_succ, ← append_empty (whole.passage scope)]
      exact Reads.within .expression <|
        reads (Nat.le_of_lt_succ height) ends.1 (ReadsLoop.stop ends.2)

theorem Reads.argument {given : Expression} {room : Nat} {target : String}
    {count : Nat}
    (reads : ∀ {labels},
      Reads (Pass.expression scope room) labels
        ((given.passage scope).inside .expression) rest ())
    (few : count + 1 ≤ maxCount) :
    Reads (Pass.argument scope room target count) labels
      ((given.passage scope).inside .expression) rest (count + 1) := by
  rw [← append_empty ((given.passage scope).inside .expression)]
  exact Reads.bind reads (Reads.addArguments few)

/-! ## Every construct is read -/

mutual

/-- The operators behind an expression are read by going on with the
repetition that has read the operators of the expression. -/
theorem reads_operations (known : scope.Declares declared) :
    ∀ (whole : Expression) {room : Nat} {labels : LabelCounters}
      {others : Passage} {rest : List Token},
      whole.Admissible declared → heightOfList whole.children ≤ room →
      EndsTerm (others.tokens ++ rest).head? →
      (∀ {labels}, ReadsLoop Token.binaryOperator?
        (operation scope room) labels others rest () ()) →
      Reads (do term scope room; operations scope room) labels
        (whole.passage scope ++ others) rest ()
  | .term only, room, _, others, rest, admissible, height, ends, loop => by
      simp only [Expression.children, heightOfList,
        DerivationTree.height] at height
      rw [Expression.passage_term]
      exact Reads.bind (reads_term known only admissible (by omega) ends)
        (Reads.repeatWhile loop)
  | .binary left operator right, room, _, others, rest, admissible,
      height, ends, loop => by
      simp only [Expression.children, DerivationTree.heightOfList_append,
        heightOfList, DerivationTree.height] at height
      rw [Expression.passage_binary]
      simp only [concat, append_assoc]
      refine reads_operations known left admissible.1 (by omega)
        operator.endsTerm ?_
      intro labels
      have regrouped :
          symbol operator.symbol ++
              ((right.passage scope).inside .term ++
                (emitted [operator.command] ++ others)) =
            symbol operator.symbol ++
              ((right.passage scope).inside .term ++
                emitted [operator.command]) ++ others := by
        simp only [append_assoc]
      rw [regrouped]
      refine ReadsLoop.again operator.selected ?_ loop
      refine Reads.bind (Reads.advance _) ?_
      exact Reads.bind
        (reads_term known right admissible.2 (by omega) ends)
        (Reads.emit _)

theorem reads_term (known : scope.Declares declared) :
    ∀ (operand : Term) {room : Nat} {labels : LabelCounters}
      {rest : List Token},
      operand.Admissible declared →
      heightOfList operand.children < room → EndsTerm rest.head? →
      Reads (term scope room) labels
        ((operand.passage scope).inside .term) rest ()
  | .integer value, room + 1, _, _, _, _, _ => by
      rw [Term.passage_integer, term]
      refine Reads.peek_bind (Reads.within .term ?_)
      exact Reads.bind (Reads.advance _) (Reads.emit _)
  | .string content, room + 1, _, _, admissible, _, _ => by
      rw [Term.passage_string, term]
      refine Reads.peek_bind (Reads.within .term ?_)
      refine Reads.bind (Reads.advance _) ?_
      have short : content.utf8ByteSize ≤ maxCount := admissible
      rw [if_pos short]
      exact Reads.emit _
  | .constant word, room + 1, _, _, _, _, _ => by
      rw [Term.passage_constant, term]
      refine Reads.peek_bind (Reads.within .term ?_)
      simp only [word.selected]
      exact Reads.bind (Reads.advance _) (Reads.emit _)
  | .variable name, room + 1, _, _, admissible, _, ends => by
      obtain ⟨resolved, found⟩ := Scope.exists_resolve? known admissible
      rw [Term.passage_variable, Scope.read_of_resolve? found, term]
      refine Reads.peek_bind (Reads.within .term ?_)
      refine Reads.bind (Reads.advance _) ?_
      refine Reads.peek_bind ?_
      split
      · exact absurd ‹_› ends.1
      · exact absurd ‹_› ends.2.1
      · exact absurd ‹_› ends.2.2
      · exact Reads.require found (Reads.emit _)
  | .element array index, room + 1, _, _, admissible, height, _ => by
      obtain ⟨resolved, found⟩ := Scope.exists_resolve? known admissible.1
      simp only [Term.children, heightOfList, DerivationTree.height]
        at height
      rw [Term.passage_element, Scope.read_of_resolve? found, term]
      refine Reads.peek_bind (Reads.within .term ?_)
      refine Reads.bind (Reads.advance _) ?_
      refine Reads.peek_bind (Reads.require found ?_)
      refine Reads.bind (Reads.advance _) ?_
      refine Reads.bind (Reads.emit _) ?_
      refine Reads.bind (Reads.expression (by omega)
        (reads_operations known index admissible.2) .rightBracket) ?_
      exact Reads.bind (Reads.expectSymbol .rightBracket) (Reads.emit _)
  | .call target, room + 1, _, rest, admissible, height, _ => by
      have readsCall : ∀ {labels},
          Reads (subroutineCall scope (expressionList scope room)
            target.firstName) labels (target.passageBehindName scope) rest
            () :=
        reads_call known target admissible (Nat.le_of_lt_succ height)
      rw [SubroutineCall.passage_call, term]
      refine Reads.peek_bind (Reads.within .term ?_)
      refine Reads.bind (Reads.advance _) (Reads.peek_bind ?_)
      cases target with
      | own called given => exact readsCall
      | through owner called given => exact readsCall
  | .group inner, room + 1, _, _, admissible, height, _ => by
      simp only [Term.children, heightOfList, DerivationTree.height]
        at height
      rw [Term.passage_group, term]
      refine Reads.peek_bind (Reads.within .term ?_)
      refine Reads.bind (Reads.advance _) ?_
      refine Reads.bind (Reads.expression (by omega)
        (reads_operations known inner admissible) .rightParen) ?_
      exact Reads.expectSymbol .rightParen
  | .unary operator operand, room + 1, _, rest, admissible, height,
      ends => by
      simp only [Term.children, heightOfList, DerivationTree.height]
        at height
      have readsOperand : ∀ {labels},
          Reads (term scope room) labels
            ((operand.passage scope).inside .term) rest () :=
        reads_term known operand admissible (by omega) ends
      rw [Term.passage_unary, term]
      refine Reads.peek_bind (Reads.within .term ?_)
      cases operator with
      | negate =>
          refine Reads.bind (Reads.advance _) ?_
          exact Reads.bind readsOperand (Reads.emit _)
      | not =>
          refine Reads.bind (Reads.advance _) ?_
          exact Reads.bind readsOperand (Reads.emit _)

theorem reads_call (known : scope.Declares declared) :
    ∀ (target : SubroutineCall) {room : Nat} {labels : LabelCounters}
      {rest : List Token},
      target.Admissible declared → heightOfList target.children ≤ room →
      Reads (subroutineCall scope (expressionList scope room)
        target.firstName) labels (target.passageBehindName scope) rest ()
  | .own called given, room, _, _, admissible, height => by
      rw [SubroutineCall.admissible_iff known] at admissible
      rw [SubroutineCall.height_children] at height
      refine Reads.subroutineCall _ admissible.1 ?_
      intro _ _ closes
      exact reads_expressionList known given admissible.2 height
        (Nat.le_of_add_right_le admissible.1) closes
  | .through owner called given, room, _, _, admissible, height => by
      rw [SubroutineCall.admissible_iff known] at admissible
      rw [SubroutineCall.height_children] at height
      refine Reads.subroutineCall _ admissible.1 ?_
      intro _ _ closes
      exact reads_expressionList known given admissible.2 height
        (Nat.le_of_add_right_le admissible.1) closes

theorem reads_expressionList (known : scope.Declares declared) :
    ∀ (given : ExpressionList) {room : Nat} {target : String}
      {labels : LabelCounters} {rest : List Token},
      given.Admissible declared → heightOfList given.children < room →
      given.length ≤ maxCount →
      rest.head? = some (.symbol .rightParen) →
      Reads (expressionList scope room target) labels
        ((given.passage scope).inside .expressionList) rest given.length
  | .nil, room + 1, target, _, rest, _, _, _, closes => by
      rw [expressionList_succ]
      refine Reads.within .expressionList ?_
      exact Reads.ite_of_next closes (Reads.pure 0)
  | .cons first others, room + 1, target, _, rest, admissible, height,
      few, closes => by
      simp only [ExpressionList.children, heightOfList,
        DerivationTree.height] at height
      simp only [ExpressionList.length] at few ⊢
      obtain ⟨token, later, tokens, begins⟩ := first.tokens_begin scope
      rw [expressionList_succ, ExpressionList.passage_cons]
      refine Reads.within .expressionList (Reads.ite_of_next_ne ?_ ?_)
      · intro closed
        simp only [tokens_append, tokens_inside, tokens,
          List.cons_append, List.head?_cons, Option.some.injEq]
          at closed
        subst closed
        cases begins
      · have endsFirst :
            EndsExpression
              ((others.passageContinued scope).tokens ++ rest).head? :=
          others.endsExpression closes
        refine Reads.bind (Reads.argument (Reads.expression (by omega)
          (reads_operations known first admissible.1) endsFirst)
          (by omega)) ?_
        have counted : others.length + 1 = 0 + 1 + others.length := by
          omega
        rw [counted]
        refine Reads.repeatWhile ?_
        exact readsLoop_arguments known others admissible.2 (by omega)
          (by omega) closes

theorem readsLoop_arguments (known : scope.Declares declared) :
    ∀ (others : ExpressionList) {room count : Nat} {target : String}
      {labels : LabelCounters} {rest : List Token},
      others.Admissible declared → heightOfList others.continued ≤ room →
      count + others.length ≤ maxCount →
      rest.head? = some (.symbol .rightParen) →
      ReadsLoop (exactly (.symbol .comma))
        (argumentBehindComma scope room target) labels
        (others.passageContinued scope) rest count
        (count + others.length)
  | .nil, _, _, _, _, _, _, _, _, closes => by
      refine ReadsLoop.stop ?_
      rw [closes]
      rfl
  | .cons first others, room, count, target, _, rest, admissible, height,
      few, closes => by
      simp only [ExpressionList.continued, heightOfList,
        DerivationTree.height] at height
      simp only [ExpressionList.length] at few ⊢
      have endsFirst :
          EndsExpression
            ((others.passageContinued scope).tokens ++ rest).head? :=
        others.endsExpression closes
      have counted :
          count + (others.length + 1) = count + 1 + others.length := by
        omega
      rw [ExpressionList.passageContinued_cons, counted]
      refine ReadsLoop.again rfl ?_ (readsLoop_arguments known others
        admissible.2 (by omega) (by omega) closes)
      refine Reads.bind (Reads.advance _) ?_
      exact Reads.argument (Reads.expression (by omega)
        (reads_operations known first admissible.1) endsFirst)
        (by omega)

end

/-- An admissible expression is read if there is room for it. -/
theorem reads_expression (known : scope.Declares declared)
    (whole : Expression) {room : Nat}
    (admissible : whole.Admissible declared)
    (height : whole.derivation.height ≤ room)
    (ends : EndsExpression rest.head?) :
    Reads (expression scope room) labels
      ((whole.passage scope).inside .expression) rest () :=
  Reads.expression height (reads_operations known whole admissible) ends

end Pass

end JackToVm
