import JackToVm.Proofs.ExpressionPassage

/-!
# Passages of statements

The passage of a statement lists the walk through its derivation tree, its code
where some label numbers are used up, and how many numbers it takes itself. It
is composed of the passages of its parts, in the order in which a pass reads
and writes them.
-/

namespace JackToVm

open Passage

def Statement.passage (scope : Scope) (used : NumbersUsed)
    (statement : Statement) : Passage where
  walk := statement.derivation.walk
  code := statement.code scope used
  numbers := fun kind => statement.count kind
  subroutines := []

/-- The passage inside the node of a sequence of statements. -/
def Statements.passage (scope : Scope) (used : NumbersUsed)
    (body : Statements) : Passage where
  walk := DerivationTree.walkOfList body.children
  code := body.code scope used
  numbers := fun kind => body.count kind
  subroutines := []

/-- The passage of an expression between parentheses, and of the jump that is
taken when it does not hold. -/
def Expression.conditionPassage (scope : Scope) (otherwise : String)
    (condition : Expression) : Passage :=
  concat [symbol .leftParen, (condition.passage scope).inside .expression,
    symbol .rightParen, emitted [.operation .not, .ifGoto otherwise]]

def Statements.bracedPassage (scope : Scope) (used : NumbersUsed)
    (body : Statements) : Passage :=
  concat [symbol .leftBrace, (body.passage scope used).inside .statements,
    symbol .rightBrace]

@[simp]
theorem Expression.numbers_conditionPassage (scope : Scope)
    (otherwise : String) (condition : Expression) :
    (condition.conditionPassage scope otherwise).numbers =
      fun _ => 0 := rfl

@[simp]
theorem Statements.numbers_bracedPassage (scope : Scope)
    (used : NumbersUsed) (body : Statements) :
    (body.bracedPassage scope used).numbers =
      fun kind => body.count kind := by
  simp [bracedPassage, concat, passage]

/-- The keyword that a statement begins with. -/
def Statement.word : Statement → StatementWord
  | .letVariable _ _ | .letElement _ _ _ => .let
  | .ifThen _ _ | .ifElse _ _ _ => .if
  | .whileLoop _ _ => .while
  | .doCall _ => .do
  | .returnNothing | .returnValue _ => .return

namespace Statement

variable (scope : Scope) (used : NumbersUsed)

theorem passage_letVariable (target : String) (value : Expression) :
    (Statement.letVariable target value).passage scope used =
      (concat [keyword .let, name target, symbol .equal,
        (value.passage scope).inside .expression, symbol .semicolon,
        emitted (scope.write target)]).inside .letStatement := by
  ext <;>
    simp [passage, derivation, code, count, concat, leaf, emitted, empty,
      ofTrees, Expression.passage, Expression.derivation,
      DerivationTree.walk, DerivationTree.walkOfList, DerivationTree.name,
      DerivationTree.symbol, DerivationTree.keyword]

theorem passage_letElement (array : String) (index value : Expression) :
    (Statement.letElement array index value).passage scope used =
      (concat [keyword .let, name array, symbol .leftBracket,
        emitted (scope.read array),
        (index.passage scope).inside .expression, symbol .rightBracket,
        emitted [.operation .add], symbol .equal,
        (value.passage scope).inside .expression, symbol .semicolon,
        emitted Fragment.store]).inside .letStatement := by
  ext <;>
    simp [passage, derivation, code, count, concat, leaf, emitted, empty,
      ofTrees, Expression.passage, Expression.derivation,
      DerivationTree.walk, DerivationTree.walkOfList, DerivationTree.name,
      DerivationTree.symbol, DerivationTree.keyword]

theorem passage_ifThen (condition : Expression) (body : Statements) :
    (Statement.ifThen condition body).passage scope used =
      (concat [keyword .if, numbered .if,
        condition.conditionPassage scope
          (LabelKind.if.pair (used .if)).start,
        body.bracedPassage scope (used.next .if),
        emitted [.goto (LabelKind.if.pair (used .if)).finish,
          .label (LabelKind.if.pair (used .if)).start],
        emitted [.label (LabelKind.if.pair (used .if)).finish]]).inside
          .ifStatement := by
  ext <;>
    simp [passage, derivation, code, count, concat, leaf, emitted, empty,
      numbered, NumbersUsed.one, ofTrees, Expression.passage,
      Expression.derivation, Expression.conditionPassage,
      Statements.passage, Statements.bracedPassage, DerivationTree.walk,
      DerivationTree.walkOfList, DerivationTree.symbol,
      DerivationTree.keyword, eq_comm, Nat.add_comm]

theorem passage_ifElse (condition : Expression)
    (body otherwise : Statements) :
    (Statement.ifElse condition body otherwise).passage scope used =
      (concat [keyword .if, numbered .if,
        condition.conditionPassage scope
          (LabelKind.if.pair (used .if)).start,
        body.bracedPassage scope (used.next .if),
        emitted [.goto (LabelKind.if.pair (used .if)).finish,
          .label (LabelKind.if.pair (used .if)).start],
        keyword .else,
        otherwise.bracedPassage scope ((used.next .if).behind body),
        emitted [.label (LabelKind.if.pair (used .if)).finish]]).inside
          .ifStatement := by
  ext <;>
    simp [passage, derivation, code, count, concat, leaf, emitted, empty,
      numbered, NumbersUsed.one, ofTrees, Expression.passage,
      Expression.derivation, Expression.conditionPassage,
      Statements.passage, Statements.bracedPassage, DerivationTree.walk,
      DerivationTree.walkOfList, DerivationTree.symbol,
      DerivationTree.keyword, eq_comm, Nat.add_comm]

theorem passage_whileLoop (condition : Expression) (body : Statements) :
    (Statement.whileLoop condition body).passage scope used =
      (concat [keyword .while, numbered .while,
        emitted [.label (LabelKind.while.pair (used .while)).start],
        condition.conditionPassage scope
          (LabelKind.while.pair (used .while)).finish,
        body.bracedPassage scope (used.next .while),
        emitted [.goto (LabelKind.while.pair (used .while)).start,
          .label (LabelKind.while.pair (used .while)).finish]]).inside
            .whileStatement := by
  ext <;>
    simp [passage, derivation, code, count, concat, leaf, emitted, empty,
      numbered, NumbersUsed.one, ofTrees, Expression.passage,
      Expression.derivation, Expression.conditionPassage,
      Statements.passage, Statements.bracedPassage, DerivationTree.walk,
      DerivationTree.walkOfList, DerivationTree.symbol,
      DerivationTree.keyword, eq_comm, Nat.add_comm]

theorem passage_doCall (target : SubroutineCall) :
    (Statement.doCall target).passage scope used =
      (concat [keyword .do, name target.firstName,
        target.passageBehindName scope, symbol .semicolon,
        emitted [.pop .temp 0]]).inside .doStatement := by
  have regrouped :
      concat [keyword .do, name target.firstName,
          target.passageBehindName scope, symbol .semicolon,
          emitted [.pop .temp 0]] =
        concat [keyword .do, target.passage scope, symbol .semicolon,
          emitted [.pop .temp 0]] := by
    rw [SubroutineCall.passage_eq]
    simp only [concat, append_assoc]
  rw [regrouped]
  ext <;>
    simp [passage, derivation, code, count, concat, leaf, emitted, empty,
      ofTrees, SubroutineCall.passage, DerivationTree.walk,
      DerivationTree.walkOfList, DerivationTree.symbol,
      DerivationTree.keyword]

theorem passage_returnNothing :
    Statement.returnNothing.passage scope used =
      (concat [keyword .return, emitted [.push .constant 0],
        symbol .semicolon, emitted [.return]]).inside
          .returnStatement := by
  ext <;>
    simp [passage, derivation, code, count, concat, leaf, emitted, empty,
      DerivationTree.walk, DerivationTree.walkOfList,
      DerivationTree.symbol, DerivationTree.keyword]

theorem passage_returnValue (value : Expression) :
    (Statement.returnValue value).passage scope used =
      (concat [keyword .return, (value.passage scope).inside .expression,
        symbol .semicolon, emitted [.return]]).inside
          .returnStatement := by
  ext <;>
    simp [passage, derivation, code, count, concat, leaf, emitted, empty,
      ofTrees, Expression.passage, Expression.derivation,
      DerivationTree.walk, DerivationTree.walkOfList,
      DerivationTree.symbol, DerivationTree.keyword]

theorem tokens_begin (statement : Statement) :
    ∃ others, (statement.passage scope used).tokens =
      .keyword statement.word.keyword :: others := by
  cases statement <;> exact ⟨_, rfl⟩

end Statement

namespace Statements

variable (scope : Scope) (used : NumbersUsed)

theorem passage_nil : Statements.nil.passage scope used = empty := by
  ext <;> simp [passage, children, code, count, empty,
    DerivationTree.walkOfList]

theorem passage_cons (first : Statement) (others : Statements) :
    (Statements.cons first others).passage scope used =
      first.passage scope used ++
        others.passage scope (fun kind => used kind + first.count kind) := by
  ext <;> simp [passage, Statement.passage, children, code, count,
    DerivationTree.walkOfList]

end Statements

end JackToVm
