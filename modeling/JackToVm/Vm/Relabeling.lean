import JackToVm.Label
import JackToVm.Program

/-!
# Programs with other labels

A program keeps its meaning when its labels are renamed. The numbers of all
labels can be shifted by the distance of two label counters, so that a label
that is some numbers behind the first ones becomes the label that is as many
numbers behind the second ones.
-/

namespace JackToVm

/-- A command with its label renamed. -/
def Command.relabel (rename : String → String) : Command → Command
  | .goto place => .goto (rename place)
  | .ifGoto place => .ifGoto (rename place)
  | .label place => .label (rename place)
  | command => command

namespace Command

variable (rename : String → String)

@[simp]
theorem relabel_goto (place : String) :
    (Command.goto place).relabel rename = .goto (rename place) := rfl

@[simp]
theorem relabel_ifGoto (place : String) :
    (Command.ifGoto place).relabel rename = .ifGoto (rename place) := rfl

@[simp]
theorem relabel_label (place : String) :
    (Command.label place).relabel rename = .label (rename place) := rfl

@[simp]
theorem relabel_operation (op : Operation) :
    (Command.operation op).relabel rename = .operation op := rfl

end Command

def Program.relabel (rename : String → String) (program : Program) :
    Program :=
  { program with commands := program.commands.map (·.relabel rename) }

/-- The kind of the statements whose labels have a name. -/
def LabelKind.ofName? (name : String) : Option LabelKind :=
  [LabelKind.while, LabelKind.if].find? fun kind =>
    name = kind.startName || name = kind.endName

namespace LabelCounters

/-- The label with its number shifted by the distance of the two counters of
its kind. A label is the name in front of the first digit and a number. -/
def shift (first second : LabelCounters) (label : String) : String :=
  let name := label.toList.takeWhile (!·.isDigit)
  let number := Nat.ofDigitChars 10 (label.toList.drop name.length) 0
  match LabelKind.ofName? (String.ofList name) with
  | some kind =>
      String.ofList name ++
        toString (number + second.used kind - first.used kind)
  | none => label

end LabelCounters

end JackToVm
