import JackToVm.Grammar.Admissible
import JackToVm.Grammar.Code
import JackToVm.Grammar.Evaluation
import JackToVm.Vm.Execution

/-!
# The code of expressions computes them

Commands that do not jump are described by what they do to the store and to
the top of the stack. The words below take no part, so that the code of an
operand does the same wherever it stands; by that the code of an expression is
composed in the way in which the expression is evaluated.
-/

namespace JackToVm

/-- The commands find the words `taken` on the stack, the last one at the top,
and leave the words `given` in their place, while the store `before` becomes
the store `after`. -/
def Executes (callees : Callees) (commands : List Command)
    (before : Store) (taken : List Word) (after : Store)
    (given : List Word) : Prop :=
  ∀ (machine : Machine) (rest : List Word), machine.toStore = before →
    machine.stack = taken.reverse ++ rest →
    ∃ behind : Machine, machine.runAll? callees commands = some behind ∧
      behind.toStore = after ∧ behind.stack = given.reverse ++ rest

theorem Machine.runAll?_append (callees : Callees)
    (first second : List Command) (machine : Machine) :
    machine.runAll? callees (first ++ second) =
      (machine.runAll? callees first).bind (·.runAll? callees second) :=
  List.foldlM_append

namespace Executes

variable {callees : Callees} {first second commands : List Command}
variable {store before between after : Store}
variable {taken held given : List Word}

theorem nil (words : List Word) :
    Executes callees [] store words store words := by
  intro machine rest sameStore sameStack
  exact ⟨machine, rfl, sameStore, sameStack⟩

theorem append (executesFirst :
      Executes callees first before taken between held)
    (executesSecond :
      Executes callees second between held after given) :
    Executes callees (first ++ second) before taken after given := by
  intro machine rest sameStore sameStack
  obtain ⟨middle, runFirst, storeMiddle, stackMiddle⟩ :=
    executesFirst machine rest sameStore sameStack
  obtain ⟨behind, runSecond, storeBehind, stackBehind⟩ :=
    executesSecond middle rest storeMiddle stackMiddle
  refine ⟨behind, ?_, storeBehind, stackBehind⟩
  rw [Machine.runAll?_append, runFirst]
  exact runSecond

/-- Words below take no part. -/
theorem frame (executes : Executes callees commands before taken after given)
    (below : List Word) :
    Executes callees commands before (below ++ taken) after
      (below ++ given) := by
  intro machine rest sameStore sameStack
  rw [List.reverse_append, List.append_assoc] at sameStack
  obtain ⟨behind, run, storeBehind, stackBehind⟩ :=
    executes machine (below.reverse ++ rest) sameStore sameStack
  refine ⟨behind, run, storeBehind, ?_⟩
  rw [stackBehind, List.reverse_append, List.append_assoc]

theorem one {command : Command}
    (effect : ∀ (machine : Machine) (rest : List Word),
      machine.toStore = before → machine.stack = taken.reverse ++ rest →
      ∃ behind, command.effect? callees machine = some behind ∧
        behind.toStore = after ∧ behind.stack = given.reverse ++ rest) :
    Executes callees [command] before taken after given := by
  intro machine rest sameStore sameStack
  obtain ⟨behind, acts, storeBehind, stackBehind⟩ :=
    effect machine rest sameStore sameStack
  refine ⟨behind, ?_, storeBehind, stackBehind⟩
  simp [Machine.runAll?, acts]

/-! ## Commands -/

theorem push {segment : Segment} {index : Nat} {value : Word}
    (reads : ∀ machine : Machine, machine.toStore = store →
      machine.read segment index = value) :
    Executes callees [.push segment index] store [] store [value] := by
  apply one
  intro machine rest sameStore sameStack
  refine ⟨_, rfl, sameStore, ?_⟩
  simp only [Machine.withStack, reads machine sameStore, sameStack]
  rfl

theorem pushVariable (cell : Variable) :
    Executes callees [cell.push] store [] store [store.read cell] := by
  apply push
  intro machine sameStore
  subst sameStore
  unfold Store.read
  cases cell.kind <;> rfl

theorem pushConstant (index : Nat) :
    Executes callees [.push .constant index] store [] store
      [BitVec.ofNat 16 index] := by
  apply push
  intro machine _
  rfl

theorem pushThis :
    Executes callees [.push .pointer 0] store [] store [store.this] := by
  apply push
  intro machine sameStore
  subst sameStore
  rfl

theorem operation {op : Operation} {result : Word}
    (effect : ∀ rest : List Word,
      op.effect? (taken.reverse ++ rest) = some (result :: rest)) :
    Executes callees [.operation op] store taken store [result] := by
  apply one
  intro machine rest sameStore sameStack
  refine ⟨machine.withStack (result :: rest), ?_, sameStore, rfl⟩
  rw [Command.effect?, sameStack, effect]
  rfl

theorem call {name : String} {values : List Word} {count : Nat}
    (sameCount : values.length = count) :
    Executes callees [.call name count] store values
      (store.call callees name values).2
      [(store.call callees name values).1] := by
  apply one
  intro machine rest sameStore sameStack
  subst sameCount
  have enough : values.length ≤ machine.stack.length := by
    simp [sameStack]
  have values_eq : (machine.stack.take values.length).reverse = values := by
    rw [sameStack, ← List.length_reverse, List.take_left,
      List.reverse_reverse]
  have rest_eq : machine.stack.drop values.length = rest := by
    rw [sameStack, ← List.length_reverse, List.drop_left]
  rw [Command.effect?, if_pos enough]
  simp only [values_eq, rest_eq, sameStore]
  exact ⟨_, rfl, rfl, rfl⟩

/-- The word at an address replaces the address. -/
theorem load (address : Word) :
    Executes callees Fragment.load store [address] store
      [store.heap address] := by
  intro machine rest sameStore sameStack
  subst sameStore
  refine ⟨{ machine with
    that := address, stack := machine.heap address :: rest }, ?_, rfl, rfl⟩
  simp [Machine.runAll?, Fragment.load, Command.effect?, sameStack,
    Machine.write, Machine.read, Machine.withStack]

/-! ## Constants and operators -/

theorem keywordConstant (word : KeywordConstant) :
    Executes callees word.commands store [] store [word.value store] := by
  cases word with
  | true =>
      have negated :
          Executes callees [.operation .neg] store [BitVec.ofNat 16 1]
            store [Word.yes] :=
        operation fun _ => rfl
      exact (pushConstant 1).append negated
  | false => exact pushConstant 0
  | null => exact pushConstant 0
  | this => exact pushThis

theorem unaryOperator (operator : UnaryOperator) (operand : Word) :
    Executes callees [operator.command] store [operand] store
      [operator.apply operand] := by
  cases operator <;> exact operation fun _ => rfl

theorem binaryOperator (operator : BinaryOperator) (left right : Word) :
    Executes callees [operator.command] store [left, right]
      (operator.apply callees left right store).2
      [(operator.apply callees left right store).1] := by
  cases operator with
  | divide => exact call rfl
  | multiply => exact call rfl
  | _ => exact operation fun _ => rfl

/-- Every byte is put behind the string below it. -/
theorem appendBytes (bytes : List UInt8) :
    ∀ string : Word × Store,
      Executes callees
        (bytes.flatMap fun byte =>
          [.push .constant byte.toNat, .call Fragment.stringAppend 2])
        string.2 [string.1] (JackToVm.appendBytes callees bytes string).2
        [(JackToVm.appendBytes callees bytes string).1] := by
  induction bytes with
  | nil =>
      intro string
      exact nil [string.1]
  | cons byte others inductionHypothesis =>
      intro string
      have pushed :
          Executes callees [.push .constant byte.toNat] string.2
            [string.1] string.2 [string.1, BitVec.ofNat 16 byte.toNat] :=
        (pushConstant byte.toNat).frame [string.1]
      rw [List.flatMap_cons]
      exact (pushed.append (call rfl)).append (inductionHypothesis _)

theorem string (content : String) :
    Executes callees (Fragment.string content) store []
      (buildString callees content store).2
      [(buildString callees content store).1] :=
  (pushConstant content.utf8ByteSize).append <|
    (call rfl).append (appendBytes content.toUTF8.toList _)

/-! ## Expressions -/

section Expressions

variable {scope : Scope} {declared : List String}

theorem read (known : scope.Declares declared) {name : String}
    (member : name ∈ declared) :
    Executes callees (scope.read name) store [] store
      [scope.value name store] := by
  obtain ⟨resolved, found⟩ :=
    Option.isSome_iff_exists.mp ((known name).mpr member)
  rw [Scope.read, Scope.value, found]
  exact pushVariable resolved

mutual

theorem expression (known : scope.Declares declared) :
    ∀ (whole : Expression) (store : Store), whole.Admissible declared →
      Executes callees (whole.code scope) store []
        (whole.evaluate callees scope store).2
        [(whole.evaluate callees scope store).1]
  | .term only, store, admissible => term known only store admissible
  | .binary left operator right, store, admissible => by
      have first := expression known left store admissible.1
      have second := (term known right
        (left.evaluate callees scope store).2 admissible.2).frame
          [(left.evaluate callees scope store).1]
      exact (first.append second).append (binaryOperator operator _ _)

theorem term (known : scope.Declares declared) :
    ∀ (operand : Term) (store : Store), operand.Admissible declared →
      Executes callees (operand.code scope) store []
        (operand.evaluate callees scope store).2
        [(operand.evaluate callees scope store).1]
  | .integer value, _, _ => pushConstant value
  | .string content, _, _ => string content
  | .constant word, _, _ => keywordConstant word
  | .variable _, _, admissible => read known admissible
  | .element array index, store, admissible => by
      have offset := (expression known index store admissible.2).frame
        [scope.value array store]
      have added :
          Executes callees [.operation .add]
            (index.evaluate callees scope store).2
            [scope.value array store,
              (index.evaluate callees scope store).1]
            (index.evaluate callees scope store).2
            [scope.value array store +
              (index.evaluate callees scope store).1] :=
        operation fun _ => rfl
      exact ((read known admissible.1).append offset).append
        (added.append (load _))
  | .call target, store, admissible =>
      subroutineCall known target store admissible
  | .group inner, store, admissible => expression known inner store admissible
  | .unary operator operand, store, admissible =>
      (term known operand store admissible).append
        (unaryOperator operator _)

theorem subroutineCall (known : scope.Declares declared) :
    ∀ (target : SubroutineCall) (store : Store),
      target.Admissible declared →
      Executes callees (target.code scope) store []
        (target.evaluate callees scope store).2
        [(target.evaluate callees scope store).1]
  | .own name arguments, store, admissible => by
      obtain ⟨values, sameCount⟩ :=
        expressionList known arguments store admissible.2
      exact (pushThis.append (values.frame [store.this])).append
        (call (congrArg Nat.succ sameCount))
  | .through owner name arguments, store, admissible => by
      obtain ⟨values, sameCount⟩ :=
        expressionList known arguments store admissible.2
      unfold SubroutineCall.code SubroutineCall.evaluate
      cases scope.resolve? owner with
      | some receiver =>
          exact ((pushVariable receiver).append
            (values.frame [store.read receiver])).append
              (call (congrArg Nat.succ sameCount))
      | none => exact values.append (call sameCount)

theorem expressionList (known : scope.Declares declared) :
    ∀ (arguments : ExpressionList) (store : Store),
      arguments.Admissible declared →
      Executes callees (arguments.code scope) store []
          (arguments.evaluate callees scope store).2
          (arguments.evaluate callees scope store).1 ∧
        (arguments.evaluate callees scope store).1.length =
          arguments.length
  | .nil, store, _ => ⟨nil [], rfl⟩
  | .cons first others, store, admissible => by
      have head := expression known first store admissible.1
      have tail := expressionList known others
        (first.evaluate callees scope store).2 admissible.2
      exact ⟨head.append
          (tail.1.frame [(first.evaluate callees scope store).1]),
        congrArg Nat.succ tail.2⟩

end

theorem of_evaluate (known : scope.Declares declared) {whole : Expression}
    {value : Word} (admissible : whole.Admissible declared)
    (evaluated :
      whole.evaluate callees scope before = (value, after)) :
    Executes callees (whole.code scope) before [] after [value] := by
  have executes :
      Executes callees (whole.code scope) before []
        (whole.evaluate callees scope before).2
        [(whole.evaluate callees scope before).1] :=
    expression known whole before admissible
  rw [evaluated] at executes
  exact executes

theorem of_evaluate_call (known : scope.Declares declared)
    {target : SubroutineCall} {value : Word}
    (admissible : target.Admissible declared)
    (evaluated :
      target.evaluate callees scope before = (value, after)) :
    Executes callees (target.code scope) before [] after [value] := by
  have executes :
      Executes callees (target.code scope) before []
        (target.evaluate callees scope before).2
        [(target.evaluate callees scope before).1] :=
    subroutineCall known target before admissible
  rw [evaluated] at executes
  exact executes

end Expressions

end Executes

end JackToVm
