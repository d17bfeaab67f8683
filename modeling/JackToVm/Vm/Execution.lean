import JackToVm.Store

/-!
# Execution of commands

The stack machine: a working stack on top of a store, the two pointers and the
temporary cells. Commands that do not jump act on the machine alone; jumps
look their label up in the block of commands that is executed. The calls of a
block are not executed but answered by `Callees`.
-/

namespace JackToVm

/-- The state of the machine while it executes a block. -/
structure Machine extends Store where
  /-- The address that the segment `that` begins at. -/
  that : Word
  temps : Nat → Word
  /-- The working stack, the top first. -/
  stack : List Word

namespace Machine

def start (store : Store) (that : Word) (temps : Nat → Word) : Machine where
  toStore := store
  that := that
  temps := temps
  stack := []

/-! ## Segments -/

def read (machine : Machine) : Segment → Nat → Word
  | .argument, index => machine.arguments index
  | .constant, index => BitVec.ofNat 16 index
  | .local, index => machine.locals index
  | .pointer, index => if index = 0 then machine.this else machine.that
  | .static, index => machine.statics index
  | .temp, index => machine.temps index
  | .that, index => machine.heap (machine.that + BitVec.ofNat 16 index)
  | .this, index => machine.heap (machine.this + BitVec.ofNat 16 index)

/-- The machine with another word in a cell of a segment. Constants stay what
they are. -/
def write (machine : Machine) (value : Word) : Segment → Nat → Machine
  | .argument, index =>
      { machine with arguments := replaceAt machine.arguments index value }
  | .constant, _ => machine
  | .local, index =>
      { machine with locals := replaceAt machine.locals index value }
  | .pointer, index =>
      if index = 0 then { machine with this := value }
      else { machine with that := value }
  | .static, index =>
      { machine with statics := replaceAt machine.statics index value }
  | .temp, index =>
      { machine with temps := replaceAt machine.temps index value }
  | .that, index =>
      { machine with
        heap := replaceAt machine.heap
          (machine.that + BitVec.ofNat 16 index) value }
  | .this, index =>
      { machine with
        heap := replaceAt machine.heap
          (machine.this + BitVec.ofNat 16 index) value }

/-! ## Commands that do not jump -/

def withStack (machine : Machine) (stack : List Word) : Machine :=
  { machine with stack := stack }

end Machine

/-- The stack behind an operation; none if the operation finds too few
words. -/
def Operation.effect? : Operation → List Word → Option (List Word)
  | .neg, top :: rest => some (-top :: rest)
  | .not, top :: rest => some (~~~top :: rest)
  | .add, second :: first :: rest => some ((first + second) :: rest)
  | .and, second :: first :: rest => some ((first &&& second) :: rest)
  | .eq, second :: first :: rest =>
      some (Word.ofCondition (first == second) :: rest)
  | .gt, second :: first :: rest =>
      some (Word.ofCondition (second.slt first) :: rest)
  | .lt, second :: first :: rest =>
      some (Word.ofCondition (first.slt second) :: rest)
  | .or, second :: first :: rest => some ((first ||| second) :: rest)
  | .sub, second :: first :: rest => some ((first - second) :: rest)
  | _, _ => none

/-- The machine behind a command that does not jump; none if the command finds
too few words on the stack, or jumps. -/
def Command.effect? (callees : Callees) (command : Command)
    (machine : Machine) : Option Machine :=
  match command with
  | .push segment index =>
      some (machine.withStack (machine.read segment index :: machine.stack))
  | .pop segment index =>
      match machine.stack with
      | top :: rest =>
          some ((machine.withStack rest).write top segment index)
      | [] => none
  | .call name count =>
      if count ≤ machine.stack.length then
        let values := (machine.stack.take count).reverse
        let (result, store) := machine.toStore.call callees name values
        some { machine with
          toStore := store
          temps :=
            callees.temps name values machine.toShared machine.temps
          stack := result :: machine.stack.drop count }
      else
        none
  | .function _ count =>
      some { machine with toStore := machine.toStore.clearLocals count }
  | .label _ => some machine
  | .operation op => (op.effect? machine.stack).map machine.withStack
  | .goto _ | .ifGoto _ | .return => none

/-- The machine behind commands that do not jump. -/
def Machine.runAll? (callees : Callees) (commands : List Command)
    (machine : Machine) : Option Machine :=
  commands.foldlM (fun machine command => command.effect? callees machine)
    machine

/-! ## Blocks -/

namespace Command

/-- Whether a command belongs to the block of the command before it. The other
ones open a block of their own. -/
def continuesBlock : Command → Bool
  | .function _ _ => false
  | .push _ _ | .pop _ _ | .call _ _ | .goto _ | .ifGoto _ | .label _
  | .return | .operation _ => true

/-- The blocks of a program. Each one begins with the command that opens it,
and goes on up to the next one. -/
def blocks (commands : List Command) : List (List Command) :=
  commands.splitBy fun _ next => next.continuesBlock

end Command

/-- A machine that has reached a place in a block. -/
structure Configuration where
  /-- The place of the command that comes next. -/
  position : Nat
  machine : Machine

namespace Configuration

/-- The configuration at a label of a block. -/
def jump? (block : List Command) (label : String)
    (configuration : Configuration) : Option Configuration :=
  (block.idxOf? (.label label)).map fun position =>
    { configuration with position := position }

/-- The configuration behind the next command of a block. There is none at the
end, at a `return`, and at a command that cannot be executed. -/
def next? (callees : Callees) (block : List Command)
    (configuration : Configuration) : Option Configuration := do
  let behind := configuration.position + 1
  match ← block[configuration.position]? with
  | .goto label => configuration.jump? block label
  | .ifGoto label =>
      match configuration.machine.stack with
      | [] => none
      | top :: rest =>
          let machine := configuration.machine.withStack rest
          if top = 0 then
            some ⟨behind, machine⟩
          else
            Configuration.jump? block label ⟨behind, machine⟩
  | command =>
      (command.effect? callees configuration.machine).map (⟨behind, ·⟩)

/-- A configuration is reached from another one by executing commands. -/
inductive Reaches (callees : Callees) (block : List Command) :
    Configuration → Configuration → Prop where
  | refl (configuration : Configuration) :
      Reaches callees block configuration configuration
  | step {first second last : Configuration} :
      first.next? callees block = some second →
      Reaches callees block second last →
      Reaches callees block first last

/-- A configuration in which a block ends: at a `return` with its result alone
on the stack, or behind the last command with an empty stack. -/
def Ends (block : List Command) (configuration : Configuration) :
    Ending → Prop
  | .completed =>
      configuration.position = block.length ∧
        configuration.machine.stack = []
  | .returned result =>
      block[configuration.position]? = some .return ∧
        configuration.machine.stack = [result]

end Configuration

/-- A block, begun with its first command on a machine, ends in a store. -/
def Command.BlockRuns (callees : Callees) (block : List Command)
    (machine : Machine) (ending : Ending) (after : Store) : Prop :=
  ∃ last, Configuration.Reaches callees block ⟨0, machine⟩ last ∧
    last.Ends block ending ∧ last.machine.toStore = after

end JackToVm
