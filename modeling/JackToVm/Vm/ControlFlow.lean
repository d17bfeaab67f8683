import JackToVm.Vm.Execution
import JackToVm.Vm.StackHeight

/-!
# Ways through a block

Which place of a block can come behind which other place, whatever words lie
on the stack, and the height of the working stack: counted along the block,
and counted along a way that takes the jumps. `StackDiscipline` says what a
block must keep so that the two never differ and no command finds too few
words.
-/

namespace JackToVm.Command

/-- The height of the working stack at a place of a block, counted from the
beginning of the block along its commands. -/
def heightAt (block : List Command) (position : Nat) : Nat :=
  (block.take position).foldl heightBehind 0

/-- Whether the command behind a command can come next. -/
def fallsThrough : Command → Bool
  | .goto _ | .return => false
  | .push _ _ | .pop _ _ | .call _ _ | .function _ _ | .ifGoto _ | .label _
  | .operation _ => true

/-- The label that a command jumps to, or may jump to. -/
def target? : Command → Option String
  | .goto place | .ifGoto place => some place
  | .push _ _ | .pop _ _ | .call _ _ | .function _ _ | .label _ | .return
  | .operation _ => none

/-- A place of a block can come next behind another one. -/
inductive Follows (block : List Command) : Nat → Nat → Prop where
  | next {position : Nat} {command : Command} :
      block[position]? = some command → command.fallsThrough = true →
      Follows block position (position + 1)
  | jump {position place : Nat} {command : Command} {label : String} :
      block[position]? = some command → command.target? = some label →
      block[place]? = some (.label label) →
      Follows block position place

/-- A way leads from the beginning of a block to a place, and the stack has a
height there that is counted along the way. Both outcomes of every condition
are followed. -/
inductive Way (block : List Command) : Nat → Nat → Prop where
  | enter : Way block 0 0
  | follow {position next height : Nat} {command : Command} :
      Way block position height → block[position]? = some command →
      Follows block position next →
      Way block next (command.heightBehind height)

/-- The working stack of a block is in order: no command takes more words than
there are, nothing lies on the stack at a label, behind a jump and at the end,
a `return` finds its result alone, and every way to a place, whether it is
executed or not, finds the height that is counted along the block. -/
structure StackDiscipline (block : List Command) : Prop where
  taken_le : ∀ {position : Nat} {command : Command},
    block[position]? = some command →
    command.taken ≤ heightAt block position
  label_eq : ∀ {position : Nat} {label : String},
    block[position]? = some (.label label) → heightAt block position = 0
  jump_eq : ∀ {position : Nat} {command : Command} {label : String},
    block[position]? = some command → command.target? = some label →
    heightAt block (position + 1) = 0
  return_eq : ∀ {position : Nat},
    block[position]? = some .return → heightAt block position = 1
  end_eq : heightAt block block.length = 0
  way_eq : ∀ {position height : Nat},
    Way block position height → height = heightAt block position
  way_taken_le : ∀ {position height : Nat} {command : Command},
    Way block position height → block[position]? = some command →
    command.taken ≤ height
  execution_eq : ∀ {callees : Callees} {first last : Configuration},
    first.position = 0 → first.machine.stack = [] →
    Configuration.Reaches callees block first last →
    last.machine.stack.length = heightAt block last.position

end JackToVm.Command
