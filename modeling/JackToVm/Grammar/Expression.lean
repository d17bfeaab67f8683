import JackToVm.Derivation.Tree
import JackToVm.Vocabulary

/-!
# Expressions of the grammar

Expressions as they are written, and the derivation tree of each. There is no
precedence: an expression with several operators is its left part, an operator
and a last term. A subroutine call has no node of its own in the derivation
tree.
-/

namespace JackToVm

mutual

/-- Terms with binary operators between them. -/
inductive Expression where
  | term (only : Term)
  | binary (left : Expression) (operator : BinaryOperator) (right : Term)

/-- An operand. -/
inductive Term where
  | integer (value : Nat)
  | string (content : String)
  | constant (word : KeywordConstant)
  | variable (name : String)
  | element (array : String) (index : Expression)
  | call (target : SubroutineCall)
  | group (inner : Expression)
  | unary (operator : UnaryOperator) (operand : Term)

inductive SubroutineCall where
  /-- A call on the current object. -/
  | own (name : String) (arguments : ExpressionList)
  /-- A call through a variable or a class. -/
  | through (owner name : String) (arguments : ExpressionList)

/-- The arguments of a call. -/
inductive ExpressionList where
  | nil
  | cons (first : Expression) (others : ExpressionList)

end

def ExpressionList.length : ExpressionList → Nat
  | .nil => 0
  | .cons _ others => others.length + 1

/-! ## Derivation trees -/

namespace DerivationTree

def keyword (reserved : Keyword) : DerivationTree :=
  .leaf (.keyword reserved)

def symbol (sign : Symbol) : DerivationTree :=
  .leaf (.symbol sign)

def name (name : String) : DerivationTree :=
  .leaf (.identifier name)

@[simp]
theorem height_keyword (reserved : Keyword) :
    (keyword reserved).height = 0 := rfl

@[simp]
theorem height_symbol (sign : Symbol) : (symbol sign).height = 0 := rfl

@[simp]
theorem height_name (text : String) : (name text).height = 0 := rfl

end DerivationTree

mutual

def Expression.children : Expression → List DerivationTree
  | .term only => [.branch .term only.children]
  | .binary left operator right =>
      left.children ++ [.symbol operator.symbol, .branch .term right.children]

def Term.children : Term → List DerivationTree
  | .integer value => [.leaf (.integer value)]
  | .string content => [.leaf (.string content)]
  | .constant word => [.keyword word.keyword]
  | .variable name => [.name name]
  | .element array index =>
      [.name array, .symbol .leftBracket, .branch .expression index.children,
        .symbol .rightBracket]
  | .call target => target.children
  | .group inner =>
      [.symbol .leftParen, .branch .expression inner.children,
        .symbol .rightParen]
  | .unary operator operand =>
      [.symbol operator.symbol, .branch .term operand.children]

/-- What stands for a call inside the node around it. -/
def SubroutineCall.children : SubroutineCall → List DerivationTree
  | .own name arguments =>
      [.name name, .symbol .leftParen,
        .branch .expressionList arguments.children, .symbol .rightParen]
  | .through owner name arguments =>
      [.name owner, .symbol .dot, .name name, .symbol .leftParen,
        .branch .expressionList arguments.children, .symbol .rightParen]

def ExpressionList.children : ExpressionList → List DerivationTree
  | .nil => []
  | .cons first others =>
      .branch .expression first.children :: others.continued

/-- What stands behind the first argument: the others, each behind a comma. -/
def ExpressionList.continued : ExpressionList → List DerivationTree
  | .nil => []
  | .cons first others =>
      .symbol .comma :: .branch .expression first.children ::
        others.continued

end

def Expression.derivation (expression : Expression) : DerivationTree :=
  .branch .expression expression.children

end JackToVm
