import JackToVm.Grammar.Class
import JackToVm.Program
import JackToVm.Vm.Fragment

/-!
# The code of classes

The program of a class, computed from its finished tree: every construct has
code composed of the code of its parts. Loops and branches are numbered in the
order in which their keywords stand in the source.
-/

namespace JackToVm

/-! ## Expressions -/

def Scope.read (scope : Scope) (name : String) : List Command :=
  (scope.resolve? name).toList.map Variable.push

def Scope.write (scope : Scope) (name : String) : List Command :=
  (scope.resolve? name).toList.map Variable.pop

mutual

/-- The code of an expression: operands before operators, from left to
right. -/
def Expression.code (scope : Scope) : Expression → List Command
  | .term only => only.code scope
  | .binary left operator right =>
      left.code scope ++ right.code scope ++ [operator.command]

def Term.code (scope : Scope) : Term → List Command
  | .integer value => [.push .constant value]
  | .string content => Fragment.string content
  | .constant word => word.commands
  | .variable name => scope.read name
  | .element array index =>
      scope.read array ++ index.code scope ++
        .operation .add :: Fragment.load
  | .call target => target.code scope
  | .group inner => inner.code scope
  | .unary operator operand => operand.code scope ++ [operator.command]

/-- The code of a call: the receiver, the arguments, and the call itself. -/
def SubroutineCall.code (scope : Scope) : SubroutineCall → List Command
  | .own name arguments =>
      .push .pointer 0 :: arguments.code scope ++
        [.call (qualifiedName scope.className name) (arguments.length + 1)]
  | .through owner name arguments =>
      match scope.resolve? owner with
      | some receiver =>
          receiver.push :: arguments.code scope ++
            [.call (qualifiedName receiver.type name) (arguments.length + 1)]
      | none =>
          arguments.code scope ++
            [.call (qualifiedName owner name) arguments.length]

/-- The code of the arguments, from left to right. -/
def ExpressionList.code (scope : Scope) : ExpressionList → List Command
  | .nil => []
  | .cons first others => first.code scope ++ others.code scope

end

/-! ## Statements -/

/-- The numbers used up behind some statements. -/
def NumbersUsed.behind (used : NumbersUsed) (statements : Statements) :
    NumbersUsed :=
  fun kind => used kind + statements.count kind

mutual

def Statement.code (scope : Scope) (used : NumbersUsed) :
    Statement → List Command
  | .letVariable target value => value.code scope ++ scope.write target
  | .letElement array index value =>
      scope.read array ++ index.code scope ++ .operation .add ::
        value.code scope ++ Fragment.store
  | .ifThen condition body =>
      let labels := LabelKind.if.pair (used .if)
      condition.code scope ++
        [.operation .not, .ifGoto labels.start] ++
        body.code scope (used.next .if) ++
        [.goto labels.finish, .label labels.start, .label labels.finish]
  | .ifElse condition body otherwise =>
      let labels := LabelKind.if.pair (used .if)
      condition.code scope ++
        [.operation .not, .ifGoto labels.start] ++
        body.code scope (used.next .if) ++
        [.goto labels.finish, .label labels.start] ++
        otherwise.code scope ((used.next .if).behind body) ++
        [.label labels.finish]
  | .whileLoop condition body =>
      let labels := LabelKind.while.pair (used .while)
      .label labels.start :: condition.code scope ++
        [.operation .not, .ifGoto labels.finish] ++
        body.code scope (used.next .while) ++
        [.goto labels.start, .label labels.finish]
  | .doCall target => target.code scope ++ [.pop .temp 0]
  | .returnNothing => [.push .constant 0, .return]
  | .returnValue value => value.code scope ++ [.return]

def Statements.code (scope : Scope) (used : NumbersUsed) :
    Statements → List Command
  | .nil => []
  | .cons first others =>
      first.code scope used ++
        others.code scope fun kind => used kind + first.count kind

end

/-! ## Declarations -/

/-- A variable as it is declared. -/
structure VariableDeclaration where
  name : String
  type : TypeName
  kind : VariableKind

namespace SymbolTable

/-- A table with one more variable, unless it is refused. -/
def add (table : SymbolTable) (declared : VariableDeclaration) :
    SymbolTable :=
  (table.insert declared.name declared.type.word declared.kind).2

/-- A table with several more variables, in the order of declaration. -/
def addAll (table : SymbolTable) (entries : List VariableDeclaration) :
    SymbolTable :=
  entries.foldl add table

end SymbolTable

/-- The variables of a list, each with its type and the kind given. -/
def VariableList.entries (list : VariableList) (kind : VariableKind) :
    List VariableDeclaration :=
  list.names.map fun name => ⟨name, list.type, kind⟩

def ClassVariableList.entries (list : ClassVariableList) :
    List VariableDeclaration :=
  list.toVariableList.entries list.kind.kind

/-- A parameter is an argument of its subroutine. -/
def Parameter.variable (parameter : Parameter) : VariableDeclaration :=
  ⟨parameter.name, parameter.type, .argument⟩

/-- The arguments that stand before the parameters: the object of a method. -/
def SubroutineKind.implicitVariables (className : String) :
    SubroutineKind → List VariableDeclaration
  | .method => [⟨Keyword.this.word, .named className, .argument⟩]
  | .constructor | .function => []

/-! ## Subroutines -/

namespace SubroutineDeclaration

/-- The variables of a subroutine in the order of declaration: the arguments,
and then the local variables. -/
def entries (subroutine : SubroutineDeclaration) (className : String) :
    List VariableDeclaration :=
  subroutine.kind.implicitVariables className ++
    subroutine.parameters.map Parameter.variable ++
    subroutine.declarations.flatMap (·.entries .local)

def table (subroutine : SubroutineDeclaration) (className : String) :
    SymbolTable :=
  SymbolTable.empty.addAll (subroutine.entries className)

/-- What the names in the body of a subroutine refer to. -/
def scope (subroutine : SubroutineDeclaration) (className : String)
    (classTable : SymbolTable) : Scope where
  className := className
  classTable := classTable
  subroutineTable := subroutine.table className

/-- The full name of a subroutine and its variables. -/
def symbols (subroutine : SubroutineDeclaration) (className : String) :
    String × SymbolTable :=
  (qualifiedName className subroutine.name, subroutine.table className)

/-- The commands before the body of a subroutine: its head and the prologue of
its kind. -/
def opening (subroutine : SubroutineDeclaration) (className : String)
    (classTable : SymbolTable) : List Command :=
  .function (qualifiedName className subroutine.name)
      ((subroutine.table className).count .local) ::
    subroutine.kind.prologue (classTable.count .field)

def code (subroutine : SubroutineDeclaration) (className : String)
    (classTable : SymbolTable) (used : NumbersUsed) : List Command :=
  subroutine.opening className classTable ++
    subroutine.body.code (subroutine.scope className classTable) used

/-- The code of each of several subroutines. -/
def codeOfList (className : String) (classTable : SymbolTable) :
    List SubroutineDeclaration → NumbersUsed → List (List Command)
  | [], _ => []
  | subroutine :: subroutines, used =>
      subroutine.code className classTable used ::
        codeOfList className classTable subroutines
          (used.behind subroutine.body)

end SubroutineDeclaration

namespace ClassDeclaration

def table (declared : ClassDeclaration) : SymbolTable :=
  SymbolTable.empty.addAll
    (declared.declarations.flatMap ClassVariableList.entries)

/-- The program of a class where some numbers are used up already: the code of
its subroutines one after the other. -/
def program (declared : ClassDeclaration) (used : NumbersUsed) : Program where
  className := declared.name
  classTable := declared.table
  subroutines := declared.subroutines.map (·.symbols declared.name)
  commands :=
    (SubroutineDeclaration.codeOfList declared.name declared.table
      declared.subroutines used).flatten

end ClassDeclaration

end JackToVm
