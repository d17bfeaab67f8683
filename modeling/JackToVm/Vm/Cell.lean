import JackToVm.Program

/-!
# Cells

The cell of a segment that a `push` or `pop` names, and the cells that the
commands of a subroutine may name: those that the tables of its scope have
variables for, and the few that every subroutine has.
-/

namespace JackToVm

/-- The segment and the place in it that a command names. -/
def Command.cell? : Command → Option (Segment × Nat)
  | .push segment index | .pop segment index => some (segment, index)
  | .call _ _ | .function _ _ | .goto _ | .ifGoto _ | .label _ | .return
  | .operation _ => none

namespace Variable

/-- The segment and the place in it that hold a variable. -/
def cell (declared : Variable) : Segment × Nat :=
  (declared.kind.segment, declared.index)

end Variable

namespace Scope

/-- Whether a subroutine has a cell. The variables of the subroutine and of the
class are counted by their tables. -/
def Has (scope : Scope) : Segment → Nat → Prop
  | .argument, index => index < scope.subroutineTable.count .argument
  | .local, index => index < scope.subroutineTable.count .local
  | .static, index => index < scope.classTable.count .static
  | .this, index => index < scope.classTable.count .field
  | .pointer, index => index = 0 ∨ index = 1
  | .temp, index | .that, index => index = 0
  | .constant, _ => True

/-- A block is the one of a subroutine with a scope. Its head, the only one in
it, counts the local variables, its commands name no cell that the subroutine
does not have, and different names stand for different cells. -/
structure OwnsBlock (scope : Scope) (name : String)
    (block : List Command) : Prop where
  head_eq : block.head? =
    some (.function name (scope.subroutineTable.count .local))
  head_only : ∀ (other : String) (count : Nat),
    .function other count ∉ block.tail
  has_cell : ∀ {command : Command} {segment : Segment} {index : Nat},
    command ∈ block → command.cell? = some (segment, index) →
    scope.Has segment index
  cell_ne : ∀ {first second : String} {foundFirst foundSecond : Variable},
    scope.resolve? first = some foundFirst →
    scope.resolve? second = some foundSecond → first ≠ second →
    foundFirst.cell ≠ foundSecond.cell

end Scope

/-- What the names in the body of a subroutine of a program refer to. -/
def Program.scope (program : Program) (table : SymbolTable) : Scope where
  className := program.className
  classTable := program.classTable
  subroutineTable := table

end JackToVm
