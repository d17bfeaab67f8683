/-!
# Commands of the stack machine

The segments and commands of the target machine, and the text of a program:
one command per line, no line break after the last one.
-/

namespace JackToVm

inductive Segment where
  | argument
  | constant
  | local
  | pointer
  | static
  | temp
  | that
  | this
deriving DecidableEq, Repr

namespace Segment

def word : Segment → String
  | .argument => "argument"
  | .constant => "constant"
  | .local => "local"
  | .pointer => "pointer"
  | .static => "static"
  | .temp => "temp"
  | .that => "that"
  | .this => "this"

end Segment

/-- The commands that work on the top of the stack alone. -/
inductive Operation where
  | add
  | and
  | eq
  | gt
  | lt
  | neg
  | not
  | or
  | sub
deriving DecidableEq, Repr

namespace Operation

def word : Operation → String
  | .add => "add"
  | .and => "and"
  | .eq => "eq"
  | .gt => "gt"
  | .lt => "lt"
  | .neg => "neg"
  | .not => "not"
  | .or => "or"
  | .sub => "sub"

end Operation

inductive Command where
  | push (segment : Segment) (index : Nat)
  | pop (segment : Segment) (index : Nat)
  | call (name : String) (count : Nat)
  /-- Opens the block of a function with `count` local variables. -/
  | function (name : String) (count : Nat)
  | goto (label : String)
  /-- Pops a word and goes on behind a label unless it is zero. -/
  | ifGoto (label : String)
  | label (label : String)
  /-- Ends a function; the top of the stack is its result. -/
  | return
  /-- Replaces the operands on the top of the stack by the result. -/
  | operation (operation : Operation)
deriving DecidableEq, Repr

namespace Command

def text : Command → String
  | .push segment index => "push " ++ segment.word ++ " " ++ toString index
  | .pop segment index => "pop " ++ segment.word ++ " " ++ toString index
  | .call name count => "call " ++ name ++ " " ++ toString count
  | .function name count => "function " ++ name ++ " " ++ toString count
  | .goto target => "goto " ++ target
  | .ifGoto target => "if-goto " ++ target
  | .label place => "label " ++ place
  | .return => "return"
  | .operation op => op.word

/-- The text of a command list: one line per command. -/
def textOfList (commands : List Command) : String :=
  "\n".intercalate (commands.map text)

end Command

end JackToVm
