import JackToVm.Vm

/-!
# The height of the working stack

How many words a command takes from the working stack and how many it leaves
there, and what it means for a list of commands that every one of them finds
the stack at the right height. The height at a place of a balanced list does
not depend on the way by which the place is reached: at labels and jumps it is
zero.
-/

namespace JackToVm

namespace Operation

/-- The number of operands of an operation. -/
def operands : Operation → Nat
  | .neg | .not => 1
  | .add | .and | .eq | .gt | .lt | .or | .sub => 2

end Operation

namespace Command

/-- The number of words that a command takes from the working stack. -/
def taken : Command → Nat
  | .push _ _ => 0
  | .pop _ _ => 1
  | .call _ count => count
  | .function _ _ => 0
  | .goto _ => 0
  | .ifGoto _ => 1
  | .label _ => 0
  | .return => 1
  | .operation op => op.operands

/-- The number of words that a command puts on the working stack. -/
def given : Command → Nat
  | .push _ _ | .call _ _ | .operation _ => 1
  | .pop _ _ | .function _ _ | .goto _ | .ifGoto _ | .label _ | .return => 0

/-- The height behind a command. A `return` gives the whole stack up. -/
def heightBehind (height : Nat) (command : Command) : Nat :=
  if command = .return then 0 else height - command.taken + command.given

/-- Whether a command may stand where the stack has a height. It must find
what it takes, and nothing else may lie on the stack at a label, behind a jump
and under the result of a subroutine. -/
def Fits (height : Nat) (command : Command) : Prop :=
  command.taken ≤ height ∧
    match command with
    | .goto _ | .ifGoto _ | .label _ | .return => height = command.taken
    | _ => True

/-- Whether every command fits, from a height on, and the stack is empty at
the end. -/
def Balanced : Nat → List Command → Prop
  | height, [] => height = 0
  | height, command :: commands =>
      command.Fits height ∧ Balanced (command.heightBehind height) commands

end Command

end JackToVm
