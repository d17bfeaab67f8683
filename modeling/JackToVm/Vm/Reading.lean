import JackToVm.Text.Lines
import JackToVm.Vm

/-!
# Reading commands

The text of a program, read back: one command from the words of each line. A
command is readable if the name in it is one word.
-/

namespace JackToVm

namespace Segment

/-- The segment with a name. -/
def ofWord? : String → Option Segment
  | "argument" => some .argument
  | "constant" => some .constant
  | "local" => some .local
  | "pointer" => some .pointer
  | "static" => some .static
  | "temp" => some .temp
  | "that" => some .that
  | "this" => some .this
  | _ => none

@[simp]
theorem ofWord?_word (segment : Segment) :
    ofWord? segment.word = some segment := by
  cases segment <;> rfl

@[simp]
theorem isWord_word (segment : Segment) : Text.IsWord segment.word := by
  cases segment <;> decide

end Segment

namespace Operation

/-- The operation with a name. -/
def ofWord? : String → Option Operation
  | "add" => some .add
  | "and" => some .and
  | "eq" => some .eq
  | "gt" => some .gt
  | "lt" => some .lt
  | "neg" => some .neg
  | "not" => some .not
  | "or" => some .or
  | "sub" => some .sub
  | _ => none

@[simp]
theorem ofWord?_word (operation : Operation) :
    ofWord? operation.word = some operation := by
  cases operation <;> rfl

@[simp]
theorem isWord_word (operation : Operation) :
    Text.IsWord operation.word := by
  cases operation <;> decide

end Operation

namespace Command

/-- The words of a command, which stand on its line with one space between
any two. -/
def words : Command → List String
  | .push segment index => ["push", segment.word, toString index]
  | .pop segment index => ["pop", segment.word, toString index]
  | .call name count => ["call", name, toString count]
  | .function name count => ["function", name, toString count]
  | .goto target => ["goto", target]
  | .ifGoto target => ["if-goto", target]
  | .label place => ["label", place]
  | .return => ["return"]
  | .operation op => [op.word]

/-- The command with some words. -/
def ofWords? : List String → Option Command
  | ["push", segment, index] => do
      return .push (← Segment.ofWord? segment) (← index.toNat?)
  | ["pop", segment, index] => do
      return .pop (← Segment.ofWord? segment) (← index.toNat?)
  | ["call", name, count] => count.toNat?.map (.call name)
  | ["function", name, count] => count.toNat?.map (.function name)
  | ["goto", target] => some (.goto target)
  | ["if-goto", target] => some (.ifGoto target)
  | ["label", place] => some (.label place)
  | ["return"] => some .return
  | [word] => (Operation.ofWord? word).map .operation
  | _ => none

/-- The command that stands on a line. -/
def ofLine? (line : String) : Option Command :=
  ofWords? (Text.words line)

/-- The commands of a text. The text without commands is empty, and not a text
with an empty line. -/
def listOfText? (text : String) : Option (List Command) :=
  if text = "" then some [] else (Text.lines text).mapM ofLine?

/-- Whether the name in a command, if there is one, is a word of the line. -/
def Readable : Command → Prop
  | .call name _ | .function name _ | .goto name | .ifGoto name
  | .label name => Text.IsWord name
  | .push _ _ | .pop _ _ | .return | .operation _ => True

section Readable

variable (name : String) (number : Nat)

@[simp]
theorem readable_push (segment : Segment) :
    (push segment number).Readable := trivial

@[simp]
theorem readable_pop (segment : Segment) :
    (pop segment number).Readable := trivial

@[simp]
theorem readable_call_iff :
    (call name number).Readable ↔ Text.IsWord name := Iff.rfl

@[simp]
theorem readable_function_iff :
    (function name number).Readable ↔ Text.IsWord name := Iff.rfl

@[simp]
theorem readable_goto_iff :
    (goto name).Readable ↔ Text.IsWord name := Iff.rfl

@[simp]
theorem readable_ifGoto_iff :
    (ifGoto name).Readable ↔ Text.IsWord name := Iff.rfl

@[simp]
theorem readable_label_iff :
    (label name).Readable ↔ Text.IsWord name := Iff.rfl

@[simp]
theorem readable_return : Command.return.Readable := trivial

@[simp]
theorem readable_operation (op : Operation) :
    (operation op).Readable := trivial

end Readable

end Command

end JackToVm
