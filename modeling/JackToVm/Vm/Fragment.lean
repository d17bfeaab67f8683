import JackToVm.Vm
import JackToVm.Vocabulary

/-!
# Code fragments

The commands for the smallest parts of a source: operators, constants, the
access to an element of an array, and the beginning of a subroutine. What has
no command of its own is a call of a library function.
-/

namespace JackToVm

namespace Fragment

/-! ## Library functions -/

/-- Makes an empty string with room for a number of characters. -/
def stringNew : String := "String.new"

/-- Puts a character behind a string; yields the string. -/
def stringAppend : String := "String.appendChar"

def multiply : String := "Math.multiply"

def divide : String := "Math.divide"

/-- Finds room for a number of words. -/
def memoryAlloc : String := "Memory.alloc"

/-! ## Strings and arrays -/

/-- The commands that build a string constant, one byte after the other. -/
def string (text : String) : List Command :=
  .push .constant text.utf8ByteSize :: .call stringNew 1 ::
    text.toUTF8.toList.flatMap fun byte =>
      [.push .constant byte.toNat, .call stringAppend 2]

/-- The commands that replace an address by the word stored there. -/
def load : List Command :=
  [.pop .pointer 1, .push .that 0]

/-- The commands that write the top of the stack to the address below it. The
value is kept aside while `that` is set. -/
def store : List Command :=
  [.pop .temp 0, .pop .pointer 1, .push .temp 0, .pop .that 0]

end Fragment

/-! ## Operators and constants -/

def BinaryOperator.command : BinaryOperator → Command
  | .add => .operation .add
  | .and => .operation .and
  | .divide => .call Fragment.divide 2
  | .equal => .operation .eq
  | .greater => .operation .gt
  | .less => .operation .lt
  | .multiply => .call Fragment.multiply 2
  | .or => .operation .or
  | .subtract => .operation .sub

def UnaryOperator.command : UnaryOperator → Command
  | .negate => .operation .neg
  | .not => .operation .not

/-- The commands for a constant; `true` is the word with all bits set. -/
def KeywordConstant.commands : KeywordConstant → List Command
  | .true => [.push .constant 1, .operation .neg]
  | .false => [.push .constant 0]
  | .null => [.push .constant 0]
  | .this => [.push .pointer 0]

/-! ## Subroutines -/

/-- The commands before the body of a subroutine: a constructor makes room for
the fields of a new object, a method takes the object from its first
argument. -/
def SubroutineKind.prologue (fields : Nat) : SubroutineKind → List Command
  | .constructor =>
      [.push .constant fields, .call Fragment.memoryAlloc 1, .pop .pointer 0]
  | .method => [.push .argument 0, .pop .pointer 0]
  | .function => []

end JackToVm
