import JackToVm.SymbolTable

/-!
# Programs and scopes

What the compilation of a class yields: the commands together with the symbol
tables of the class and of its subroutines. A scope resolves the names in the
body of a subroutine.
-/

namespace JackToVm

/-- A compiled class. -/
structure Program where
  className : String
  /-- The static and field variables of the class. -/
  classTable : SymbolTable
  /-- The full names and the argument and local variables of the subroutines,
  in the order of declaration. -/
  subroutines : List (String × SymbolTable)
  /-- The commands of all subroutines, in the order of declaration. -/
  commands : List Command

namespace Program

def text (program : Program) : String :=
  Command.textOfList program.commands

end Program

/-! ## Names in the body of a subroutine -/

/-- What the names in the body of a subroutine can refer to. -/
structure Scope where
  className : String
  classTable : SymbolTable
  subroutineTable : SymbolTable

namespace Scope

/-- The variable that a name refers to: one of the subroutine, or else one of
the class. -/
def resolve? (scope : Scope) (name : String) : Option Variable :=
  (scope.subroutineTable.lookup? name).or (scope.classTable.lookup? name)

/-- The names in `declared` are those that a scope resolves. -/
def Declares (scope : Scope) (declared : List String) : Prop :=
  ∀ name, (scope.resolve? name).isSome ↔ name ∈ declared

end Scope

/-- The name of a subroutine of a class, or of a call through a class or a
variable of that type. -/
def qualifiedName (owner subroutine : String) : String :=
  owner ++ "." ++ subroutine

end JackToVm
