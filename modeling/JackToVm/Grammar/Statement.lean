import JackToVm.Grammar.Expression
import JackToVm.Label

/-!
# Statements of the grammar

Statements as they are written, the derivation tree of each, and the numbers
of loops and branches in them.
-/

namespace JackToVm

mutual

inductive Statement where
  | letVariable (target : String) (value : Expression)
  | letElement (array : String) (index value : Expression)
  | ifThen (condition : Expression) (body : Statements)
  | ifElse (condition : Expression) (body otherwise : Statements)
  | whileLoop (condition : Expression) (body : Statements)
  /-- A call whose result is dropped. -/
  | doCall (target : SubroutineCall)
  /-- The end of the subroutine, without a result. -/
  | returnNothing
  /-- The end of the subroutine, with a result. -/
  | returnValue (value : Expression)

inductive Statements where
  | nil
  | cons (first : Statement) (others : Statements)

end

/-! ## Derivation trees -/

mutual

def Statement.derivation : Statement → DerivationTree
  | .letVariable target value =>
      .branch .letStatement
        [.keyword .let, .name target, .symbol .equal, value.derivation,
          .symbol .semicolon]
  | .letElement array index value =>
      .branch .letStatement
        [.keyword .let, .name array, .symbol .leftBracket, index.derivation,
          .symbol .rightBracket, .symbol .equal, value.derivation,
          .symbol .semicolon]
  | .ifThen condition body =>
      .branch .ifStatement
        [.keyword .if, .symbol .leftParen, condition.derivation,
          .symbol .rightParen, .symbol .leftBrace,
          .branch .statements body.children, .symbol .rightBrace]
  | .ifElse condition body otherwise =>
      .branch .ifStatement
        [.keyword .if, .symbol .leftParen, condition.derivation,
          .symbol .rightParen, .symbol .leftBrace,
          .branch .statements body.children, .symbol .rightBrace,
          .keyword .else, .symbol .leftBrace,
          .branch .statements otherwise.children, .symbol .rightBrace]
  | .whileLoop condition body =>
      .branch .whileStatement
        [.keyword .while, .symbol .leftParen, condition.derivation,
          .symbol .rightParen, .symbol .leftBrace,
          .branch .statements body.children, .symbol .rightBrace]
  | .doCall target =>
      .branch .doStatement
        (.keyword .do :: target.children ++ [.symbol .semicolon])
  | .returnNothing =>
      .branch .returnStatement [.keyword .return, .symbol .semicolon]
  | .returnValue value =>
      .branch .returnStatement
        [.keyword .return, value.derivation, .symbol .semicolon]

/-- What stands inside the node of a sequence of statements. -/
def Statements.children : Statements → List DerivationTree
  | .nil => []
  | .cons first others => first.derivation :: others.children

end

def Statements.derivation (body : Statements) : DerivationTree :=
  .branch .statements body.children

/-! ## Loops and branches -/

mutual

/-- The number of statements of a kind in a statement, itself included. -/
def Statement.count (kind : LabelKind) : Statement → Nat
  | .ifThen _ body => body.count kind + if kind = .if then 1 else 0
  | .ifElse _ body otherwise =>
      body.count kind + otherwise.count kind + if kind = .if then 1 else 0
  | .whileLoop _ body => body.count kind + if kind = .while then 1 else 0
  | _ => 0

def Statements.count (kind : LabelKind) : Statements → Nat
  | .nil => 0
  | .cons first others => first.count kind + others.count kind

end

end JackToVm
