import JackToVm.Error
import JackToVm.Grammar.Class

/-!
# Admissible classes

The rules that a class must keep beside the grammar: every name is declared
once in its scope, variables are declared, and nothing exceeds the limits of
the compiler and of the target machine. The rules are stated on the tree alone,
without any table.
-/

namespace JackToVm

/-! ## Expressions -/

/-- The number of arguments that a receiver adds to a call: one if the call
goes through a variable. -/
def receiverCount (declared : List String) (owner : String) : Nat :=
  if owner ∈ declared then 1 else 0

mutual

/-- The rules for an expression where the names in `declared` are variables. -/
def Expression.Admissible (declared : List String) : Expression → Prop
  | .term only => only.Admissible declared
  | .binary left _ right =>
      left.Admissible declared ∧ right.Admissible declared

def Term.Admissible (declared : List String) : Term → Prop
  | .integer _ => True
  | .string content => content.utf8ByteSize ≤ maxCount
  | .constant _ => True
  | .variable name => name ∈ declared
  | .element array index => array ∈ declared ∧ index.Admissible declared
  | .call target => target.Admissible declared
  | .group inner => inner.Admissible declared
  | .unary _ operand => operand.Admissible declared

/-- The rules for a call: the receiver counts as an argument. -/
def SubroutineCall.Admissible (declared : List String) :
    SubroutineCall → Prop
  | .own _ arguments =>
      arguments.length + 1 ≤ maxCount ∧ arguments.Admissible declared
  | .through owner _ arguments =>
      arguments.length + receiverCount declared owner ≤ maxCount ∧
        arguments.Admissible declared

def ExpressionList.Admissible (declared : List String) :
    ExpressionList → Prop
  | .nil => True
  | .cons first others =>
      first.Admissible declared ∧ others.Admissible declared

end

/-! ## Statements -/

mutual

def Statement.Admissible (declared : List String) : Statement → Prop
  | .letVariable target value =>
      target ∈ declared ∧ value.Admissible declared
  | .letElement array index value =>
      array ∈ declared ∧ index.Admissible declared ∧
        value.Admissible declared
  | .ifThen condition body =>
      condition.Admissible declared ∧ body.Admissible declared
  | .ifElse condition body otherwise =>
      condition.Admissible declared ∧ body.Admissible declared ∧
        otherwise.Admissible declared
  | .whileLoop condition body =>
      condition.Admissible declared ∧ body.Admissible declared
  | .doCall target => target.Admissible declared
  | .returnNothing => True
  | .returnValue value => value.Admissible declared

def Statements.Admissible (declared : List String) : Statements → Prop
  | .nil => True
  | .cons first others =>
      first.Admissible declared ∧ others.Admissible declared

end

/-! ## Declarations -/

namespace SubroutineDeclaration

/-- The names that stand for the arguments. The first argument of a method is
the object it is called on. -/
def argumentNames (subroutine : SubroutineDeclaration) : List String :=
  (if subroutine.kind = .method then [Keyword.this.word] else []) ++
    subroutine.parameters.map Parameter.name

def localNames (subroutine : SubroutineDeclaration) : List String :=
  subroutine.declarations.flatMap VariableList.names

structure Admissible (subroutine : SubroutineDeclaration)
    (classNames : List String) : Prop where
  names_nodup : (subroutine.argumentNames ++ subroutine.localNames).Nodup
  arguments_le : subroutine.argumentNames.length ≤ maxCount
  locals_le : subroutine.localNames.length ≤ maxCount
  body : subroutine.body.Admissible
    (subroutine.argumentNames ++ subroutine.localNames ++ classNames)

end SubroutineDeclaration

namespace ClassDeclaration

def variableNames (declared : ClassDeclaration) : List String :=
  declared.declarations.flatMap fun list => list.names

/-- The names of the class variables of a kind. -/
def namesOf (declared : ClassDeclaration) (kind : ClassVariableKind) :
    List String :=
  (declared.declarations.filter (·.kind = kind)).flatMap fun list => list.names

structure Admissible (declared : ClassDeclaration) : Prop where
  names_nodup : declared.variableNames.Nodup
  variables_le : ∀ kind, (declared.namesOf kind).length ≤ maxCount
  subroutines : ∀ subroutine ∈ declared.subroutines,
    subroutine.Admissible declared.variableNames
  height_le : declared.derivation.height ≤ Node.maxDepth

end ClassDeclaration

end JackToVm
