import JackToVm.Counter
import JackToVm.Vm

/-!
# Variables

A declared variable: its type, the kind of its declaration and its place among
the variables of that kind. The kind decides the memory segment.
-/

namespace JackToVm

inductive VariableKind where
  | static
  | field
  | argument
  | local
deriving DecidableEq, Repr

namespace VariableKind

def word : VariableKind → String
  | .static => "static"
  | .field => "field"
  | .argument => "argument"
  | .local => "local"

/-- The segment that holds the variables of a kind. -/
def segment : VariableKind → Segment
  | .static => .static
  | .field => .this
  | .argument => .argument
  | .local => .local

/-- Variables of different kinds live in different segments. -/
theorem segment_injective {first second : VariableKind}
    (equal : first.segment = second.segment) : first = second := by
  cases first <;> cases second <;> simp_all [segment]

end VariableKind

structure Variable where
  type : String
  /-- How it was declared. -/
  kind : VariableKind
  /-- Its place among the variables of its kind in the same scope. -/
  index : Nat
deriving DecidableEq, Repr

namespace Variable

def push (cell : Variable) : Command :=
  .push cell.kind.segment cell.index

def pop (cell : Variable) : Command :=
  .pop cell.kind.segment cell.index

end Variable

end JackToVm
