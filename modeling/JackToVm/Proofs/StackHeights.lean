import JackToVm.Proofs.Compilation
import JackToVm.Proofs.Blocks
import JackToVm.Vm.ControlFlow

/-!
# The working stack of compiled programs

The code of an expression puts one word on the stack from whatever height, the
code of an argument list one word for each argument, and the code of a
statement leaves an empty stack empty. So in the block of a subroutine every
command finds what it takes, and the height at a place is the same on every
way that leads there.
-/

namespace JackToVm

namespace Command

/-! ## Commands that fit one after the other -/

/-- Every command fits, and the commands lead from one height to another. -/
def Leads : Nat → List Command → Nat → Prop
  | height, [], behind => height = behind
  | height, command :: commands, behind =>
      command.Fits height ∧
        Leads (command.heightBehind height) commands behind

theorem balanced_iff_leads {height : Nat} {commands : List Command} :
    Balanced height commands ↔ Leads height commands 0 := by
  induction commands generalizing height with
  | nil => exact Iff.rfl
  | cons command others inductionHypothesis =>
      exact and_congr_right fun _ => inductionHypothesis

namespace Leads

variable {first second commands : List Command} {command : Command}
variable {height between behind position : Nat}

theorem nil (height : Nat) : Leads height [] height := rfl

theorem append (leadsFirst : Leads height first between)
    (leadsSecond : Leads between second behind) :
    Leads height (first ++ second) behind := by
  induction first generalizing height with
  | nil =>
      have same : height = between := leadsFirst
      subst same
      exact leadsSecond
  | cons command others inductionHypothesis =>
      obtain ⟨fits, leadsOthers⟩ := leadsFirst
      exact ⟨fits, inductionHypothesis leadsOthers⟩

theorem push (segment : Segment) (index height : Nat) :
    Leads height [.push segment index] (height + 1) :=
  ⟨⟨Nat.zero_le _, trivial⟩, rfl⟩

theorem pop (segment : Segment) (index height : Nat) :
    Leads (height + 1) [.pop segment index] height :=
  ⟨⟨Nat.le_add_left 1 height, trivial⟩, rfl⟩

theorem call (name : String) (count height : Nat) :
    Leads (height + count) [.call name count] (height + 1) := by
  have behind :
      (Command.call name count).heightBehind (height + count) =
        height + 1 := by
    simp [heightBehind, taken, given]
  exact ⟨⟨Nat.le_add_left count height, trivial⟩, behind⟩

theorem operation (op : Operation) (height : Nat) :
    Leads (height + op.operands) [.operation op] (height + 1) := by
  have behind :
      (Command.operation op).heightBehind (height + op.operands) =
        height + 1 := by
    simp [heightBehind, taken, given]
  exact ⟨⟨Nat.le_add_left op.operands height, trivial⟩, behind⟩

theorem ifGoto (label : String) : Leads 1 [.ifGoto label] 0 :=
  ⟨⟨Nat.le_refl 1, rfl⟩, rfl⟩

theorem goto (label : String) : Leads 0 [.goto label] 0 :=
  ⟨⟨Nat.le_refl 0, rfl⟩, rfl⟩

theorem label (label : String) : Leads 0 [.label label] 0 :=
  ⟨⟨Nat.le_refl 0, rfl⟩, rfl⟩

theorem «return» : Leads 1 [.return] 0 :=
  ⟨⟨Nat.le_refl 1, rfl⟩, rfl⟩

theorem foldl_eq (leads : Leads height commands behind) :
    commands.foldl heightBehind height = behind := by
  induction commands generalizing height with
  | nil => exact leads
  | cons command others inductionHypothesis =>
      exact inductionHypothesis leads.2

/-- A command of the list fits at the height that is counted up to it. -/
theorem fits (leads : Leads height commands behind)
    (found : commands[position]? = some command) :
    command.Fits ((commands.take position).foldl heightBehind height) := by
  induction commands generalizing height position with
  | nil => cases found
  | cons first others inductionHypothesis =>
      cases position with
      | zero =>
          obtain rfl := Option.some.inj found
          exact leads.1
      | succ position => exact inductionHypothesis leads.2 found

end Leads

/-! ## Ways through a block -/

variable {block : List Command} {position next height : Nat}
variable {command : Command}

theorem heightAt_succ (found : block[position]? = some command) :
    heightAt block (position + 1) =
      command.heightBehind (heightAt block position) := by
  have split :
      block.take (position + 1) = block.take position ++ [command] := by
    rw [List.take_add_one, found]
    rfl
  rw [heightAt, split, List.foldl_append]
  rfl

/-- Nothing lies on the stack behind a jump that fits. -/
theorem Fits.heightBehind_target {label : String}
    (fits : command.Fits height) (jumps : command.target? = some label) :
    command.heightBehind height = 0 := by
  cases command with
  | goto place =>
      have empty : height = 0 := fits.2
      subst empty
      rfl
  | ifGoto place =>
      have single : height = 1 := fits.2
      subst single
      rfl
  | _ => cases jumps

/-- One step of a way goes on with the height that is counted along the
block. -/
theorem Follows.heightAt_eq
    (fits : ∀ {position : Nat} {command : Command},
      block[position]? = some command →
      command.Fits (heightAt block position))
    (found : block[position]? = some command)
    (follows : Follows block position next) :
    heightAt block next = command.heightBehind (heightAt block position) := by
  cases follows with
  | next _ _ => exact heightAt_succ found
  | jump same jumps placed =>
      rw [found] at same
      obtain rfl := Option.some.inj same
      have atLabel : heightAt block next = 0 := (fits placed).2
      rw [atLabel, (fits found).heightBehind_target jumps]

theorem Way.eq_heightAt
    (fits : ∀ {position : Nat} {command : Command},
      block[position]? = some command →
      command.Fits (heightAt block position))
    (way : Way block position height) :
    height = heightAt block position := by
  induction way with
  | enter => rfl
  | follow _ found follows inductionHypothesis =>
      rw [follows.heightAt_eq fits found, ← inductionHypothesis]

end Command

open Command (Leads)

/-! ## Executions are ways -/

section Executions

open JackToVm.Configuration (Reaches)

variable {callees : Callees} {block : List Command}
variable {machine behind : Machine} {command : Command}

theorem Operation.length_of_effect? {op : Operation}
    {before after : List Word} (acts : op.effect? before = some after) :
    op.operands ≤ before.length ∧
      after.length = before.length - op.operands + 1 := by
  unfold Operation.effect? at acts
  split at acts
  case h_10 => cases acts
  all_goals
    obtain rfl := Option.some.inj acts
    constructor
    · simp [Operation.operands]
    · simp [Operation.operands]

theorem Machine.stack_writeCell (machine : Machine) (value : Word)
    (segment : Segment) (index : Nat) :
    (machine.write value segment index).stack = machine.stack := by
  cases segment with
  | pointer =>
      unfold Machine.write
      by_cases first : index = 0
      · simp [first]
      · simp [first]
  | _ => rfl

/-- A command that acts on the machine changes the height of the stack as it
is counted. -/
theorem Command.length_of_effect?
    (acts : command.effect? callees machine = some behind) :
    behind.stack.length =
      command.heightBehind machine.stack.length := by
  cases command with
  | push segment index =>
      obtain rfl := Option.some.inj acts
      rfl
  | pop segment index =>
      cases stack : machine.stack with
      | nil => simp [Command.effect?, stack] at acts
      | cons top rest =>
          simp only [Command.effect?, stack, Option.some.injEq] at acts
          rw [← acts, (machine.withStack rest).stack_writeCell]
          rfl
  | call name count =>
      by_cases enough : count ≤ machine.stack.length
      · simp only [Command.effect?, enough, if_true,
          Option.some.injEq] at acts
        rw [← acts]
        simp [Command.heightBehind, Command.taken, Command.given]
      · simp [Command.effect?, enough] at acts
  | function name count =>
      obtain rfl := Option.some.inj acts
      rfl
  | label place =>
      obtain rfl := Option.some.inj acts
      rfl
  | operation op =>
      obtain ⟨stack, changed, rfl⟩ := Option.map_eq_some_iff.mp acts
      obtain ⟨_, counted⟩ := Operation.length_of_effect? changed
      exact counted
  | goto place => cases acts
  | ifGoto place => cases acts
  | «return» => cases acts

theorem Command.fallsThrough_of_effect?
    (acts : command.effect? callees machine = some behind) :
    command.fallsThrough = true := by
  cases command with
  | goto place => cases acts
  | «return» => cases acts
  | _ => rfl

/-- A jump that finds its label leads to a place with that label. -/
theorem Configuration.getElem?_of_jump? {label : String}
    {configuration arrived : Configuration}
    (jumps : configuration.jump? block label = some arrived) :
    block[arrived.position]? = some (.label label) ∧
      arrived.machine = configuration.machine := by
  obtain ⟨place, found, rfl⟩ := Option.map_eq_some_iff.mp jumps
  obtain ⟨inside, same, _⟩ := List.idxOf?_eq_some_iff.mp found
  exact ⟨List.getElem?_eq_some_iff.mpr ⟨inside, same⟩, rfl⟩

/-- A configuration stands at a place to which a way leads with the words that
lie on its stack. -/
def Configuration.OnWay (block : List Command)
    (configuration : Configuration) : Prop :=
  Command.Way block configuration.position
    configuration.machine.stack.length

theorem Configuration.OnWay.next {first second : Configuration}
    (way : first.OnWay block)
    (next : first.next? callees block = some second) :
    second.OnWay block := by
  obtain ⟨command, found, later⟩ := Option.bind_eq_some_iff.mp next
  have acted : ∀ {behind : Machine},
      command.effect? callees first.machine = some behind →
      Command.Way block (first.position + 1) behind.stack.length := by
    intro behind acts
    have falls := Command.fallsThrough_of_effect? acts
    rw [Command.length_of_effect? acts]
    exact .follow way found (.next found falls)
  cases command with
  | goto place =>
      obtain ⟨placed, same⟩ := Configuration.getElem?_of_jump? later
      have arrives := Command.Way.follow way found (.jump found rfl placed)
      rw [OnWay, same]
      exact arrives
  | ifGoto place =>
      cases stack : first.machine.stack with
      | nil => simp [stack] at later
      | cons top rest =>
          have height :
              (Command.ifGoto place).heightBehind
                first.machine.stack.length = rest.length := by
            rw [stack]
            rfl
          by_cases zero : top = 0
          · simp only [stack, zero, if_true, Option.some.injEq] at later
            have arrives := Command.Way.follow way found (.next found rfl)
            rw [height] at arrives
            rw [← later]
            exact arrives
          · simp only [stack, zero, if_false] at later
            obtain ⟨placed, same⟩ := Configuration.getElem?_of_jump? later
            have arrives :=
              Command.Way.follow way found (.jump found rfl placed)
            rw [height] at arrives
            rw [OnWay, same]
            exact arrives
  | push segment index | pop segment index | call name count
  | function name count | label place | operation op | «return» =>
      obtain ⟨behind, acts, rfl⟩ := Option.map_eq_some_iff.mp later
      exact acted acts

/-- Whatever is executed from the beginning of a block follows a way through
it. -/
theorem Configuration.OnWay.of_reaches {first last : Configuration}
    (way : first.OnWay block)
    (reaches : Reaches callees block first last) : last.OnWay block := by
  induction reaches with
  | refl _ => exact way
  | step next _ inductionHypothesis =>
      exact inductionHypothesis (way.next next)

theorem Command.Balanced.stackDiscipline
    (balanced : Command.Balanced 0 block) :
    Command.StackDiscipline block := by
  have leads : Leads 0 block 0 := Command.balanced_iff_leads.mp balanced
  have fits : ∀ {position : Nat} {command : Command},
      block[position]? = some command →
      command.Fits (Command.heightAt block position) := fun found =>
    leads.fits found
  exact {
    taken_le := fun found => (fits found).1
    label_eq := fun found => (fits found).2
    jump_eq := by
      intro position command label found jumps
      rw [Command.heightAt_succ found]
      exact (fits found).heightBehind_target jumps
    return_eq := fun found => (fits found).2
    end_eq := by
      rw [Command.heightAt, List.take_length]
      exact leads.foldl_eq
    way_eq := fun way => way.eq_heightAt fits
    way_taken_le := by
      intro position height command way found
      rw [way.eq_heightAt fits]
      exact (fits found).1
    execution_eq := by
      intro callees first last begins empty reaches
      have entered : first.OnWay block := by
        rw [Configuration.OnWay, begins, empty]
        exact .enter
      exact (entered.of_reaches reaches).eq_heightAt fits }

end Executions

/-! ## Expressions -/

theorem BinaryOperator.leads_command (operator : BinaryOperator)
    (height : Nat) : Leads (height + 2) [operator.command] (height + 1) := by
  cases operator with
  | divide => exact Leads.call _ 2 height
  | multiply => exact Leads.call _ 2 height
  | add => exact Leads.operation .add height
  | and => exact Leads.operation .and height
  | equal => exact Leads.operation .eq height
  | greater => exact Leads.operation .gt height
  | less => exact Leads.operation .lt height
  | or => exact Leads.operation .or height
  | subtract => exact Leads.operation .sub height

theorem UnaryOperator.leads_command (operator : UnaryOperator)
    (height : Nat) : Leads (height + 1) [operator.command] (height + 1) := by
  cases operator with
  | negate => exact Leads.operation .neg height
  | not => exact Leads.operation .not height

theorem KeywordConstant.leads_commands (word : KeywordConstant)
    (height : Nat) : Leads height word.commands (height + 1) := by
  cases word with
  | true =>
      have pushed : Leads height [.push .constant 1] (height + 1) :=
        Leads.push _ _ _
      exact pushed.append (Leads.operation .neg height)
  | false => exact Leads.push _ _ _
  | null => exact Leads.push _ _ _
  | this => exact Leads.push _ _ _

/-- Every byte is taken together with the string below it. -/
theorem leads_appendBytes (bytes : List UInt8) (height : Nat) :
    Leads (height + 1)
      (bytes.flatMap fun byte =>
        [.push .constant byte.toNat, .call Fragment.stringAppend 2])
      (height + 1) := by
  induction bytes with
  | nil => exact Leads.nil _
  | cons byte others inductionHypothesis =>
      have pushed :
          Leads (height + 1) [.push .constant byte.toNat] (height + 2) :=
        Leads.push _ _ _
      have appended :
          Leads (height + 2) [.call Fragment.stringAppend 2] (height + 1) :=
        Leads.call _ 2 height
      rw [List.flatMap_cons]
      exact (pushed.append appended).append inductionHypothesis

theorem Fragment.leads_string (content : String) (height : Nat) :
    Leads height (Fragment.string content) (height + 1) := by
  have pushed :
      Leads height [.push .constant content.utf8ByteSize] (height + 1) :=
    Leads.push _ _ _
  have made : Leads (height + 1) [.call stringNew 1] (height + 1) :=
    Leads.call _ 1 height
  exact (pushed.append made).append (leads_appendBytes _ height)

theorem Fragment.leads_load (height : Nat) :
    Leads (height + 1) Fragment.load (height + 1) := by
  have addressed : Leads (height + 1) [.pop .pointer 1] height :=
    Leads.pop _ _ _
  exact addressed.append (Leads.push _ _ _)

theorem Fragment.leads_store : Leads 2 Fragment.store 0 := by
  have kept : Leads 2 [.pop .temp 0] 1 := Leads.pop _ _ _
  have addressed : Leads 1 [.pop .pointer 1] 0 := Leads.pop _ _ _
  have pushed : Leads 0 [.push .temp 0] 1 := Leads.push _ _ _
  have stored : Leads 1 [.pop .that 0] 0 := Leads.pop _ _ _
  exact kept.append (addressed.append (pushed.append stored))

section Expressions

variable {scope : Scope} {declared : List String}

theorem Scope.leads_read (known : scope.Declares declared) {name : String}
    (member : name ∈ declared) (height : Nat) :
    Leads height (scope.read name) (height + 1) := by
  obtain ⟨resolved, found⟩ := Scope.exists_resolve? known member
  rw [Scope.read_of_resolve? found]
  exact Leads.push _ _ _

theorem Scope.leads_write (known : scope.Declares declared) {name : String}
    (member : name ∈ declared) (height : Nat) :
    Leads (height + 1) (scope.write name) height := by
  obtain ⟨resolved, found⟩ := Scope.exists_resolve? known member
  rw [Scope.write_of_resolve? found]
  exact Leads.pop _ _ _

mutual

theorem Expression.leads_code (known : scope.Declares declared) :
    ∀ (whole : Expression) (height : Nat), whole.Admissible declared →
      Leads height (whole.code scope) (height + 1)
  | .term only, height, admissible =>
      only.leads_code known height admissible
  | .binary left operator right, height, admissible => by
      have first := left.leads_code known height admissible.1
      have second := right.leads_code known (height + 1) admissible.2
      exact (first.append second).append (operator.leads_command height)

theorem Term.leads_code (known : scope.Declares declared) :
    ∀ (operand : Term) (height : Nat), operand.Admissible declared →
      Leads height (operand.code scope) (height + 1)
  | .integer _, height, _ => Leads.push _ _ height
  | .string content, height, _ => Fragment.leads_string content height
  | .constant word, height, _ => word.leads_commands height
  | .variable _, height, admissible =>
      Scope.leads_read known admissible height
  | .element array index, height, admissible => by
      have base := Scope.leads_read known admissible.1 height
      have offset := index.leads_code known (height + 1) admissible.2
      have added :
          Leads (height + 2) [.operation .add] (height + 1) :=
        Leads.operation .add height
      exact (base.append offset).append
        (added.append (Fragment.leads_load height))
  | .call target, height, admissible =>
      target.leads_code known height admissible
  | .group inner, height, admissible =>
      inner.leads_code known height admissible
  | .unary operator operand, height, admissible =>
      (operand.leads_code known height admissible).append
        (operator.leads_command height)

theorem SubroutineCall.leads_code (known : scope.Declares declared) :
    ∀ (target : SubroutineCall) (height : Nat),
      target.Admissible declared →
      Leads height (target.code scope) (height + 1)
  | .own name arguments, height, admissible => by
      have receiver : Leads height [.push .pointer 0] (height + 1) :=
        Leads.push _ _ _
      have values :=
        arguments.leads_code known (height + 1) admissible.2
      have together :
          height + 1 + arguments.length =
            height + (arguments.length + 1) := by
        omega
      rw [together] at values
      exact (receiver.append values).append (Leads.call _ _ height)
  | .through owner name arguments, height, admissible => by
      unfold SubroutineCall.code
      cases scope.resolve? owner with
      | some object =>
          have receiver : Leads height [object.push] (height + 1) :=
            Leads.push _ _ _
          have values :=
            arguments.leads_code known (height + 1) admissible.2
          have together :
              height + 1 + arguments.length =
                height + (arguments.length + 1) := by
            omega
          rw [together] at values
          exact (receiver.append values).append (Leads.call _ _ height)
      | none =>
          have values := arguments.leads_code known height admissible.2
          exact values.append (Leads.call _ _ height)

theorem ExpressionList.leads_code (known : scope.Declares declared) :
    ∀ (arguments : ExpressionList) (height : Nat),
      arguments.Admissible declared →
      Leads height (arguments.code scope) (height + arguments.length)
  | .nil, height, _ => Leads.nil height
  | .cons first others, height, admissible => by
      have head := first.leads_code known height admissible.1
      have tail := others.leads_code known (height + 1) admissible.2
      have together :
          height + 1 + others.length =
            height + (ExpressionList.cons first others).length := by
        simp only [ExpressionList.length]
        omega
      rw [together] at tail
      exact head.append tail

end

end Expressions

/-! ## Statements -/

section Statements

variable {scope : Scope} {declared : List String}

/-- The code of a condition and of the jump that is taken when it fails. -/
theorem Expression.leads_condition (known : scope.Declares declared)
    {condition : Expression} (admissible : condition.Admissible declared)
    (otherwise : String) :
    Leads 0
      (condition.code scope ++ [.operation .not, .ifGoto otherwise]) 0 := by
  have value := condition.leads_code known 0 admissible
  have negated : Leads 1 [.operation .not] 1 := Leads.operation .not 0
  exact value.append (negated.append (Leads.ifGoto otherwise))

mutual

theorem Statement.leads_code (known : scope.Declares declared) :
    ∀ (one : Statement) (used : NumbersUsed), one.Admissible declared →
      Leads 0 (one.code scope used) 0
  | .letVariable target value, used, admissible =>
      (value.leads_code known 0 admissible.2).append
        (Scope.leads_write known admissible.1 0)
  | .letElement array index value, used, admissible => by
      have base := Scope.leads_read known admissible.1 0
      have offset := index.leads_code known 1 admissible.2.1
      have added : Leads 2 [.operation .add] 1 := Leads.operation .add 0
      have assigned := value.leads_code known 1 admissible.2.2
      exact ((base.append offset).append
        (added.append assigned)).append Fragment.leads_store
  | .ifThen condition body, used, admissible => by
      have tested := Expression.leads_condition known admissible.1
        (LabelKind.if.pair (used .if)).start
      have inner := body.leads_code known (used.next .if) admissible.2
      have left := (Leads.goto (LabelKind.if.pair (used .if)).finish).append
        ((Leads.label (LabelKind.if.pair (used .if)).start).append
          (Leads.label (LabelKind.if.pair (used .if)).finish))
      exact (tested.append inner).append left
  | .ifElse condition body otherwise, used, admissible => by
      have tested := Expression.leads_condition known admissible.1
        (LabelKind.if.pair (used .if)).start
      have inner := body.leads_code known (used.next .if) admissible.2.1
      have left := (Leads.goto (LabelKind.if.pair (used .if)).finish).append
        (Leads.label (LabelKind.if.pair (used .if)).start)
      have innerOtherwise := otherwise.leads_code known
        ((used.next .if).behind body) admissible.2.2
      have finished :=
        Leads.label (LabelKind.if.pair (used .if)).finish
      exact (((tested.append inner).append left).append
        innerOtherwise).append finished
  | .whileLoop condition body, used, admissible => by
      have begun := Leads.label (LabelKind.while.pair (used .while)).start
      have tested := Expression.leads_condition known admissible.1
        (LabelKind.while.pair (used .while)).finish
      have inner := body.leads_code known (used.next .while) admissible.2
      have again :=
        (Leads.goto (LabelKind.while.pair (used .while)).start).append
          (Leads.label (LabelKind.while.pair (used .while)).finish)
      exact (begun.append tested).append inner |>.append again
  | .doCall target, used, admissible =>
      (target.leads_code known 0 admissible).append (Leads.pop _ _ 0)
  | .returnNothing, used, _ => by
      have zero : Leads 0 [.push .constant 0] 1 := Leads.push _ _ _
      exact zero.append Leads.return
  | .returnValue value, used, admissible =>
      (value.leads_code known 0 admissible).append Leads.return

theorem Statements.leads_code (known : scope.Declares declared) :
    ∀ (body : Statements) (used : NumbersUsed), body.Admissible declared →
      Leads 0 (body.code scope used) 0
  | .nil, _, _ => Leads.nil 0
  | .cons first others, used, admissible =>
      (first.leads_code known used admissible.1).append
        (others.leads_code known _ admissible.2)

end

end Statements

/-! ## Subroutines -/

theorem SubroutineKind.leads_prologue (kind : SubroutineKind)
    (fields : Nat) : Leads 0 (kind.prologue fields) 0 := by
  cases kind with
  | «constructor» =>
      have sized : Leads 0 [.push .constant fields] 1 := Leads.push _ _ _
      have made : Leads 1 [.call Fragment.memoryAlloc 1] 1 :=
        Leads.call _ 1 0
      exact sized.append (made.append (Leads.pop _ _ 0))
  | method =>
      have object : Leads 0 [.push .argument 0] 1 := Leads.push _ _ _
      exact object.append (Leads.pop _ _ 0)
  | «function» => exact Leads.nil 0

theorem SubroutineDeclaration.balanced_code
    {subroutine : SubroutineDeclaration} {className : String}
    {classTable : SymbolTable} {declared : List String}
    (known : (subroutine.scope className classTable).Declares declared)
    (admissible : subroutine.body.Admissible declared)
    (used : NumbersUsed) :
    Command.Balanced 0 (subroutine.code className classTable used) := by
  have head : Leads 0
      [.function (qualifiedName className subroutine.name)
        ((subroutine.table className).count .local)] 0 :=
    ⟨⟨Nat.le_refl 0, trivial⟩, rfl⟩
  have prologue :=
    subroutine.kind.leads_prologue (classTable.count .field)
  have body := subroutine.body.leads_code known used admissible
  exact Command.balanced_iff_leads.mpr
    ((head.append prologue).append body)

/-- In a program that is compiled, every subroutine has a block, which begins
with the head of the subroutine and keeps the working stack in order. -/
theorem stackDiscipline_of_compile {tokens : List Token}
    {labels : LabelCounters} {program : Program}
    (compiled : (compile tokens labels).1 = .ok program) :
    (Command.blocks program.commands).length =
        program.subroutines.length ∧
      ∀ (index : Nat) (name : String) (table : SymbolTable),
        program.subroutines[index]? = some (name, table) →
        ∃ body : List Command,
          (Command.blocks program.commands)[index]? =
              some (.function name (table.count .local) :: body) ∧
            Command.StackDiscipline
              (.function name (table.count .local) :: body) := by
  obtain ⟨declared, _, admissible, _, rfl, _⟩ :=
    exists_program_of_compile compiled
  refine ⟨declared.length_blocks_program labels.used, ?_⟩
  intro index name table entry
  obtain ⟨subroutine, usedBefore, found, rfl, rfl, block⟩ :=
    declared.getElem?_blocks_program labels.used entry
  have member := List.mem_of_getElem? found
  have known := admissible.scope_declares member
  have rules := admissible.subroutines subroutine member
  have balanced := SubroutineDeclaration.balanced_code known rules.body
    usedBefore
  exact ⟨_, block, balanced.stackDiscipline⟩

theorem stackDiscipline_of_compile_countdown :
    ∃ program : Program,
      (compile ClassDeclaration.countdown.derivation.yield
          LabelCounters.initial).1 = .ok program ∧
        (Command.blocks program.commands).length =
          program.subroutines.length ∧
        ∀ (index : Nat) (name : String) (table : SymbolTable),
          program.subroutines[index]? = some (name, table) →
          ∃ body : List Command,
            (Command.blocks program.commands)[index]? =
                some (.function name (table.count .local) :: body) ∧
              Command.StackDiscipline
                (.function name (table.count .local) :: body) := by
  have whole :=
    compile_of_runPass
      (runPass_tokens ClassDeclaration.countdown_admissible
        ClassDeclaration.countdown_allowed)
  have compiled := congrArg Prod.fst whole
  exact ⟨_, compiled, stackDiscipline_of_compile compiled⟩

end JackToVm
