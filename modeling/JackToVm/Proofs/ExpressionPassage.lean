import JackToVm.Grammar.Admissible
import JackToVm.Grammar.Code
import JackToVm.Proofs.Reads

/-!
# Passages of expressions

The passage of an expression lists the walk through its derivation tree and
its code. Every construct has a passage that is composed of the passages of its
parts, in the order in which a pass reads and writes them.
-/

namespace JackToVm

open Passage

def Expression.passage (scope : Scope) (expression : Expression) : Passage :=
  .ofTrees expression.children (expression.code scope)

def Term.passage (scope : Scope) (term : Term) : Passage :=
  .ofTrees term.children (term.code scope)

def ExpressionList.passage (scope : Scope) (arguments : ExpressionList) :
    Passage :=
  .ofTrees arguments.children (arguments.code scope)

/-- The passage behind the first argument. -/
def ExpressionList.passageContinued (scope : Scope)
    (others : ExpressionList) : Passage :=
  .ofTrees others.continued (others.code scope)

namespace SubroutineCall

def passage (scope : Scope) (call : SubroutineCall) : Passage :=
  .ofTrees call.children (call.code scope)

def firstName : SubroutineCall → String
  | .own name _ => name
  | .through owner _ _ => owner

def arguments : SubroutineCall → ExpressionList
  | .own _ arguments => arguments
  | .through _ _ arguments => arguments

/-- The passage between the first name and the arguments. -/
def opening (scope : Scope) : SubroutineCall → Passage
  | .own _ _ => emitted [.push .pointer 0]
  | .through owner name _ =>
      concat [symbol .dot, .name name, emitted (scope.read owner)]

/-- The full name of the subroutine that is called. -/
def target (scope : Scope) : SubroutineCall → String
  | .own name _ => qualifiedName scope.className name
  | .through owner name _ =>
      match scope.resolve? owner with
      | some receiver => qualifiedName receiver.type name
      | none => qualifiedName owner name

/-- The number of receivers that a call passes before its arguments. -/
def receivers (scope : Scope) : SubroutineCall → Nat
  | .own _ _ => 1
  | .through owner _ _ => if (scope.resolve? owner).isSome then 1 else 0

/-- The passage behind the first name of a call. -/
def passageBehindName (scope : Scope) (call : SubroutineCall) : Passage :=
  concat [call.opening scope, symbol .leftParen,
    (call.arguments.passage scope).inside .expressionList,
    symbol .rightParen,
    emitted [.call (call.target scope)
      (call.arguments.length + call.receivers scope)]]

end SubroutineCall

/-! ## Composition -/

section Equations

variable (scope : Scope)

namespace Expression

theorem passage_term (only : Term) :
    (Expression.term only).passage scope =
      (only.passage scope).inside .term := by
  ext <;>
    simp [passage, Term.passage, ofTrees, empty, children, code,
      DerivationTree.walkOfList, DerivationTree.walk]

theorem passage_binary (left : Expression) (operator : BinaryOperator)
    (right : Term) :
    (Expression.binary left operator right).passage scope =
      concat [left.passage scope, symbol operator.symbol,
        (right.passage scope).inside .term,
        emitted [operator.command]] := by
  ext <;>
    simp [passage, Term.passage, ofTrees, empty, children, code, concat,
      leaf, emitted, DerivationTree.walkOfList, DerivationTree.walk,
      DerivationTree.symbol]

end Expression

namespace Term

theorem passage_integer (value : Nat) :
    (Term.integer value).passage scope =
      concat [leaf (.integer value),
        emitted [.push .constant value]] := by
  ext <;>
    simp [passage, ofTrees, empty, children, code, concat, leaf, emitted,
      DerivationTree.walkOfList, DerivationTree.walk]

theorem passage_string (content : String) :
    (Term.string content).passage scope =
      concat [leaf (.string content),
        emitted (Fragment.string content)] := by
  ext <;>
    simp [passage, ofTrees, empty, children, code, concat, leaf, emitted,
      DerivationTree.walkOfList, DerivationTree.walk]

theorem passage_constant (word : KeywordConstant) :
    (Term.constant word).passage scope =
      concat [keyword word.keyword, emitted word.commands] := by
  ext <;>
    simp [passage, ofTrees, empty, children, code, concat, leaf, emitted,
      DerivationTree.walkOfList, DerivationTree.walk,
      DerivationTree.keyword]

theorem passage_variable (variableName : String) :
    (Term.variable variableName).passage scope =
      concat [name variableName, emitted (scope.read variableName)] := by
  ext <;>
    simp [passage, ofTrees, empty, children, code, concat, leaf, emitted,
      DerivationTree.walkOfList, DerivationTree.walk, DerivationTree.name]

theorem passage_element (array : String) (index : Expression) :
    (Term.element array index).passage scope =
      concat [name array, symbol .leftBracket,
        emitted (scope.read array),
        (index.passage scope).inside .expression, symbol .rightBracket,
        emitted (.operation .add :: Fragment.load)] := by
  ext <;>
    simp [passage, Expression.passage, ofTrees, empty, children, code,
      concat, leaf, emitted, DerivationTree.walkOfList,
      DerivationTree.walk, DerivationTree.name, DerivationTree.symbol]

theorem passage_group (inner : Expression) :
    (Term.group inner).passage scope =
      concat [symbol .leftParen, (inner.passage scope).inside .expression,
        symbol .rightParen] := by
  ext <;>
    simp [passage, Expression.passage, ofTrees, empty, children, code,
      concat, leaf, DerivationTree.walkOfList, DerivationTree.walk,
      DerivationTree.symbol]

theorem passage_unary (operator : UnaryOperator) (operand : Term) :
    (Term.unary operator operand).passage scope =
      concat [symbol operator.symbol, (operand.passage scope).inside .term,
        emitted [operator.command]] := by
  ext <;>
    simp [passage, ofTrees, empty, children, code, concat, leaf, emitted,
      DerivationTree.walkOfList, DerivationTree.walk,
      DerivationTree.symbol]

end Term

namespace SubroutineCall

theorem passage_eq (call : SubroutineCall) :
    call.passage scope =
      name call.firstName ++ call.passageBehindName scope := by
  cases call with
  | own called given =>
      ext <;>
        simp [passage, passageBehindName, opening, arguments, target,
          receivers, firstName, ExpressionList.passage, ofTrees, empty,
          children, code, concat, leaf, emitted,
          DerivationTree.walkOfList, DerivationTree.walk,
          DerivationTree.name, DerivationTree.symbol]
  | through owner called given =>
      cases resolved : scope.resolve? owner <;> ext <;>
        simp [passage, passageBehindName, opening, arguments, target,
          receivers, firstName, ExpressionList.passage, ofTrees, empty,
          children, code, concat, leaf, emitted,
          DerivationTree.walkOfList, DerivationTree.walk,
          DerivationTree.name, DerivationTree.symbol, resolved,
          Scope.read]

theorem passage_call (call : SubroutineCall) :
    (Term.call call).passage scope =
      name call.firstName ++ call.passageBehindName scope := by
  rw [← passage_eq]
  rfl

end SubroutineCall

namespace ExpressionList

theorem passage_nil : ExpressionList.nil.passage scope = empty := rfl

theorem passage_cons (first : Expression) (others : ExpressionList) :
    (ExpressionList.cons first others).passage scope =
      (first.passage scope).inside .expression ++
        others.passageContinued scope := by
  ext <;>
    simp [passage, passageContinued, Expression.passage, ofTrees, empty,
      children, code, DerivationTree.walkOfList, DerivationTree.walk]

theorem passageContinued_nil :
    ExpressionList.nil.passageContinued scope = empty := rfl

theorem passageContinued_cons (first : Expression)
    (others : ExpressionList) :
    (ExpressionList.cons first others).passageContinued scope =
      symbol .comma ++ (first.passage scope).inside .expression ++
        others.passageContinued scope := by
  ext <;>
    simp [passageContinued, Expression.passage, ofTrees, empty, continued,
      code, leaf, DerivationTree.walkOfList, DerivationTree.walk,
      DerivationTree.symbol]

end ExpressionList

end Equations

/-! ## First tokens -/

/-- The tokens that a term begins with. -/
def Token.beginsTerm : Token → Bool
  | .integer _ | .string _ | .identifier _ => true
  | .keyword reserved => (KeywordConstant.ofKeyword? reserved).isSome
  | .symbol sign => sign = .leftParen || sign.unaryOperator?.isSome

theorem Term.tokens_begin (scope : Scope) (term : Term) :
    ∃ first others, (term.passage scope).tokens = first :: others ∧
      first.beginsTerm := by
  cases term with
  | integer _ | string _ | «variable» _ | element _ _ | group _ =>
      exact ⟨_, _, rfl, rfl⟩
  | constant word =>
      refine ⟨_, _, rfl, ?_⟩
      cases word <;> rfl
  | call target =>
      rw [SubroutineCall.passage_call]
      exact ⟨_, _, rfl, rfl⟩
  | unary operator _ =>
      refine ⟨_, _, rfl, ?_⟩
      cases operator <;> rfl

theorem Expression.tokens_begin (scope : Scope) (expression : Expression) :
    ∃ first others, (expression.passage scope).tokens = first :: others ∧
      first.beginsTerm := by
  cases expression with
  | term only =>
      rw [passage_term, tokens_inside]
      exact only.tokens_begin scope
  | binary left operator right =>
      obtain ⟨first, others, tokens, begins⟩ := left.tokens_begin scope
      rw [passage_binary]
      simp only [concat, tokens_append, tokens]
      exact ⟨first, _, rfl, begins⟩

end JackToVm
