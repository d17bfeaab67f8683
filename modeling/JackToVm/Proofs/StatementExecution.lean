import JackToVm.Proofs.BlockExecution

/-!
# The code of statements runs them

Where the code of a statement lies in a block, execution does what the
statement does: it arrives behind the code, or at a `return` with the result.
For loops this is half of the truth. The other half is that a statement that
does not end keeps the machine busy: for every number of commands, either the
statement ends or that many commands can be executed.
-/

namespace JackToVm

/-! ## Assignments -/

theorem Machine.toStore_write (machine : Machine) (cell : Variable)
    (value : Word) :
    (machine.write value cell.kind.segment cell.index).toStore =
      machine.toStore.write cell value := by
  unfold Store.write
  cases cell.kind <;> rfl

theorem Machine.stack_write (machine : Machine) (cell : Variable)
    (value : Word) :
    (machine.write value cell.kind.segment cell.index).stack =
      machine.stack := by
  cases cell.kind <;> rfl

namespace Executes

variable {callees : Callees} {before : Store}

theorem popVariable (cell : Variable) (value : Word) :
    Executes callees [cell.pop] before [value] (before.write cell value)
      [] := by
  apply one
  intro machine rest sameStore sameStack
  subst sameStore
  refine ⟨(machine.withStack rest).write value cell.kind.segment
    cell.index, ?_, ?_, ?_⟩
  · simp [Variable.pop, Command.effect?, sameStack]
  · rw [Machine.toStore_write]
    rfl
  · rw [Machine.stack_write]
    rfl

theorem write {scope : Scope} {declared : List String}
    (known : scope.Declares declared) {name : String}
    (member : name ∈ declared) (value : Word) :
    Executes callees (scope.write name) before [value]
      (scope.assign name value before) [] := by
  obtain ⟨resolved, found⟩ :=
    Option.isSome_iff_exists.mp ((known name).mpr member)
  rw [Scope.write, Scope.assign, found]
  exact popVariable resolved value

theorem popTemp (value : Word) :
    Executes callees [.pop .temp 0] before [value] before [] := by
  apply one
  intro machine rest sameStore sameStack
  refine ⟨(machine.withStack rest).write value .temp 0, ?_, sameStore, rfl⟩
  simp [Command.effect?, sameStack]

/-- The value is kept aside while the address becomes `that`. -/
theorem store (address value : Word) :
    Executes callees Fragment.store before [address, value]
      (before.writeHeap address value) [] := by
  intro machine rest sameStore sameStack
  subst sameStore
  refine ⟨{ machine with
    heap := replaceAt machine.heap address value
    temps := replaceAt machine.temps 0 value
    that := address
    stack := rest }, ?_, rfl, rfl⟩
  simp [Machine.runAll?, Fragment.store, Command.effect?, sameStack,
    Machine.write, Machine.read, Machine.withStack, replaceAt]

/-- The address is computed before the value. -/
theorem letElement {callees : Callees} {scope : Scope}
    {declared : List String} (known : scope.Declares declared)
    {array : String} {index value : Expression} {used : NumbersUsed}
    {before between after : Store} {offset word : Word}
    (admissible :
      (Statement.letElement array index value).Admissible declared)
    (indexed : index.evaluate callees scope before = (offset, between))
    (evaluated : value.evaluate callees scope between = (word, after)) :
    Executes callees
      ((Statement.letElement array index value).code scope used) before []
      (after.writeHeap (scope.value array before + offset) word) [] := by
  have base :
      Executes callees (scope.read array) before [] before
        [scope.value array before] :=
    read known admissible.1
  have indexes := (of_evaluate known admissible.2.1 indexed).frame
    [scope.value array before]
  have adds :
      Executes callees [.operation .add] between
        [scope.value array before, offset] between
        [scope.value array before + offset] :=
    operation fun _ => rfl
  have evaluates := (of_evaluate known admissible.2.2 evaluated).frame
    [scope.value array before + offset]
  exact ((base.append indexes).append (adds.append evaluates)).append
    (store _ _)

end Executes

open JackToVm.Configuration (Reaches Continues)

/-- A machine with an empty working stack on a store. -/
def Machine.Rests (machine : Machine) (store : Store) : Prop :=
  machine.toStore = store ∧ machine.stack = []

/-- From a configuration, execution arrives behind some code or at the end of
the subroutine. -/
def Configuration.Finishes (callees : Callees) (block : List Command)
    (first : Configuration) (behind : Nat) (ending : Ending)
    (after : Store) : Prop :=
  match ending with
  | .completed =>
      ∃ machine : Machine, Reaches callees block first ⟨behind, machine⟩ ∧
        machine.Rests after
  | .returned result =>
      ∃ last : Configuration, Reaches callees block first last ∧
        last.Ends block (.returned result) ∧ last.machine.toStore = after

open JackToVm.Configuration (Finishes)

section Finishes

variable {callees : Callees} {block : List Command}
variable {first second : Configuration} {position behind : Nat}
variable {ending : Ending} {after : Store}

theorem Configuration.Finishes.of_reaches
    (finishes : Finishes callees block second behind ending after)
    (reaches : Reaches callees block first second) :
    Finishes callees block first behind ending after := by
  cases ending with
  | completed =>
      obtain ⟨machine, later, rests⟩ := finishes
      exact ⟨machine, reaches.trans later, rests⟩
  | returned result =>
      obtain ⟨last, later, ends, same⟩ := finishes
      exact ⟨last, reaches.trans later, ends, same⟩

/-- What is executed behind some code only concerns the runs that complete
it. -/
theorem Configuration.Finishes.extend
    (finishes : Finishes callees block first position ending after)
    (later : ∀ machine : Machine,
      Reaches callees block ⟨position, machine⟩ ⟨behind, machine⟩) :
    Finishes callees block first behind ending after := by
  cases ending with
  | completed =>
      obtain ⟨machine, reaches, rests⟩ := finishes
      exact ⟨machine, reaches.trans (later machine), rests⟩
  | returned result => exact finishes

end Finishes

/-! ## Parts of the code of statements -/

section Parts

variable {callees : Callees} {block commands : List Command}
variable {position place : Nat} {machine : Machine} {label : String}
variable {before after : Store} {taken given : List Word}

theorem reaches_executes
    (executes : Executes callees commands before taken after given)
    (located : Located block position commands)
    (sameStore : machine.toStore = before)
    (sameStack : machine.stack = taken.reverse) :
    ∃ arrived : Machine,
      Reaches callees block ⟨position, machine⟩
        ⟨position + commands.length, arrived⟩ ∧
      arrived.toStore = after ∧ arrived.stack = given.reverse := by
  obtain ⟨arrived, run, storeArrived, stackArrived⟩ :=
    executes machine [] sameStore (by rw [sameStack, List.append_nil])
  rw [List.append_nil] at stackArrived
  exact ⟨arrived, Located.reaches_runAll? located run, storeArrived,
    stackArrived⟩

theorem reaches_label
    (located : Located block position (.label label :: commands)) :
    Reaches callees block ⟨position, machine⟩ ⟨position + 1, machine⟩ := by
  refine Reaches.one ?_
  simp [Configuration.next?, located.head, Command.effect?]

theorem next?_goto (distinct : (Command.labelsOf block).Nodup)
    {others : List Command}
    (located : Located block position (.goto label :: others))
    (target : Located block place (.label label :: commands)) :
    Configuration.next? callees block ⟨position, machine⟩ =
      some ⟨place, machine⟩ := by
  simp [Configuration.next?, located.head, Configuration.jump?,
    target.idxOf?_label distinct]

theorem next?_ifGoto_of_zero (callees : Callees)
    {others : List Command} {word : Word}
    (located : Located block position (.ifGoto label :: others))
    (stack : machine.stack = [word]) (isZero : word = 0) :
    Configuration.next? callees block ⟨position, machine⟩ =
      some ⟨position + 1, machine.withStack []⟩ := by
  subst isZero
  simp [Configuration.next?, located.head, stack]

theorem next?_ifGoto_of_ne (callees : Callees)
    (distinct : (Command.labelsOf block).Nodup)
    {others : List Command} {word : Word}
    (located : Located block position (.ifGoto label :: others))
    (target : Located block place (.label label :: commands))
    (stack : machine.stack = [word]) (notZero : word ≠ 0) :
    Configuration.next? callees block ⟨position, machine⟩ =
      some ⟨place, machine.withStack []⟩ := by
  have decided : (word = 0) = False := eq_false notZero
  simp only [Configuration.next?, located.head, stack, Option.bind_eq_bind,
    Option.bind_some, decided, if_false, Configuration.jump?,
    target.idxOf?_label distinct, Option.map_some]

/-- The code of a condition: it goes on behind it if the condition holds. -/
def Expression.conditionCode (scope : Scope) (otherwise : String)
    (condition : Expression) : List Command :=
  condition.code scope ++ [.operation .not, .ifGoto otherwise]

variable {scope : Scope} {declared : List String}

theorem reaches_ifGoto (known : scope.Declares declared)
    {condition : Expression} {word : Word}
    (admissible : condition.Admissible declared)
    (located : Located block position (condition.conditionCode scope label))
    (rests : machine.Rests before)
    (evaluated :
      condition.evaluate callees scope before = (word, after)) :
    ∃ arrived : Machine,
      Reaches callees block ⟨position, machine⟩
        ⟨position + (condition.code scope).length + 1, arrived⟩ ∧
      arrived.toStore = after ∧ arrived.stack = [~~~word] := by
  have pushes := Executes.of_evaluate known admissible evaluated
  have negates :
      Executes callees [.operation .not] after [word] after [~~~word] :=
    Executes.operation fun _ => rfl
  have locatedNegation :
      Located block position
        (condition.code scope ++ [.operation .not] ++ [.ifGoto label]) := by
    simpa [Expression.conditionCode] using located
  obtain ⟨arrived, reaches, same⟩ :=
    reaches_executes (pushes.append negates) locatedNegation.left rests.1
      rests.2
  rw [List.length_append, ← Nat.add_assoc] at reaches
  exact ⟨arrived, reaches, same⟩

theorem not_eq_zero_iff {word : Word} : ~~~word = 0 ↔ word = Word.yes := by
  constructor
  · intro zero
    rw [← BitVec.not_not (b := word), zero]
    rfl
  · intro isYes
    rw [isYes]
    rfl

/-- A condition that holds lets execution go on behind it. -/
theorem reaches_of_holds (known : scope.Declares declared)
    {condition : Expression} (admissible : condition.Admissible declared)
    (located : Located block position (condition.conditionCode scope label))
    (rests : machine.Rests before)
    (evaluated :
      condition.evaluate callees scope before = (Word.yes, after)) :
    ∃ arrived : Machine,
      Reaches callees block ⟨position, machine⟩
        ⟨position + (condition.conditionCode scope label).length,
          arrived⟩ ∧
      arrived.Rests after := by
  obtain ⟨tested, reaches, storeTested, stackTested⟩ :=
    reaches_ifGoto known admissible located rests evaluated
  have jump : Located block
      (position + (condition.code scope).length + 1) [.ifGoto label] :=
    located.right.tail
  have next := next?_ifGoto_of_zero callees jump stackTested
    (not_eq_zero_iff.mpr rfl)
  have behind :
      position + (condition.code scope).length + 1 + 1 =
        position + (condition.conditionCode scope label).length := by
    simp [Expression.conditionCode, Nat.add_assoc]
  rw [behind] at next
  exact ⟨tested.withStack [], reaches.trans (.one next), storeTested, rfl⟩

/-- A condition that does not hold leads behind its label. -/
theorem reaches_of_fails (known : scope.Declares declared)
    (distinct : (Command.labelsOf block).Nodup)
    {condition : Expression} {word : Word}
    (admissible : condition.Admissible declared)
    (located : Located block position (condition.conditionCode scope label))
    (target : Located block place (.label label :: commands))
    (rests : machine.Rests before)
    (evaluated :
      condition.evaluate callees scope before = (word, after))
    (fails : word ≠ Word.yes) :
    ∃ arrived : Machine,
      Reaches callees block ⟨position, machine⟩ ⟨place + 1, arrived⟩ ∧
      arrived.Rests after := by
  obtain ⟨tested, reaches, storeTested, stackTested⟩ :=
    reaches_ifGoto known admissible located rests evaluated
  have jump : Located block
      (position + (condition.code scope).length + 1) [.ifGoto label] :=
    located.right.tail
  have next := next?_ifGoto_of_ne callees distinct jump target
    stackTested (mt not_eq_zero_iff.mp fails)
  exact ⟨tested.withStack [],
    reaches.trans (.step next (reaches_label target)), storeTested, rfl⟩

end Parts

/-! ## Where the parts of a statement lie -/

section Layouts

variable {block : List Command} {scope : Scope} {used : NumbersUsed}
variable {position : Nat} {condition : Expression}
variable {body otherwise : Statements}

theorem Located.ifThen
    (located : Located block position
      ((Statement.ifThen condition body).code scope used)) :
    ∃ bodyAt endAt,
      bodyAt = position + (condition.conditionCode scope
        (LabelKind.if.pair (used .if)).start).length ∧
      endAt = bodyAt + (body.code scope (used.next .if)).length ∧
      Located block position (condition.conditionCode scope
        (LabelKind.if.pair (used .if)).start) ∧
      Located block bodyAt (body.code scope (used.next .if)) ∧
      Located block endAt
        [.goto (LabelKind.if.pair (used .if)).finish,
          .label (LabelKind.if.pair (used .if)).start,
          .label (LabelKind.if.pair (used .if)).finish] ∧
      position +
          ((Statement.ifThen condition body).code scope used).length =
        endAt + 3 := by
  have code :
      (Statement.ifThen condition body).code scope used =
        condition.conditionCode scope
            (LabelKind.if.pair (used .if)).start ++
          body.code scope (used.next .if) ++
          [.goto (LabelKind.if.pair (used .if)).finish,
            .label (LabelKind.if.pair (used .if)).start,
            .label (LabelKind.if.pair (used .if)).finish] := rfl
  rw [code] at located ⊢
  have atEnd := located.right
  rw [List.length_append, ← Nat.add_assoc] at atEnd
  refine ⟨_, _, rfl, rfl, located.left.left, located.left.right, atEnd, ?_⟩
  simp only [List.length_append, List.length_cons, List.length_nil]
  omega

theorem Located.ifElse
    (located : Located block position
      ((Statement.ifElse condition body otherwise).code scope used)) :
    ∃ bodyAt elseAt endAt,
      bodyAt = position + (condition.conditionCode scope
        (LabelKind.if.pair (used .if)).start).length ∧
      elseAt = bodyAt + (body.code scope (used.next .if)).length ∧
      endAt = elseAt + 2 + (otherwise.code scope
        ((used.next .if).behind body)).length ∧
      Located block position (condition.conditionCode scope
        (LabelKind.if.pair (used .if)).start) ∧
      Located block bodyAt (body.code scope (used.next .if)) ∧
      Located block elseAt
        [.goto (LabelKind.if.pair (used .if)).finish,
          .label (LabelKind.if.pair (used .if)).start] ∧
      Located block (elseAt + 2)
        (otherwise.code scope ((used.next .if).behind body)) ∧
      Located block endAt
        [.label (LabelKind.if.pair (used .if)).finish] ∧
      position + ((Statement.ifElse condition body otherwise).code scope
          used).length =
        endAt + 1 := by
  have code :
      (Statement.ifElse condition body otherwise).code scope used =
        condition.conditionCode scope
            (LabelKind.if.pair (used .if)).start ++
          body.code scope (used.next .if) ++
          [.goto (LabelKind.if.pair (used .if)).finish,
            .label (LabelKind.if.pair (used .if)).start] ++
          otherwise.code scope ((used.next .if).behind body) ++
          [.label (LabelKind.if.pair (used .if)).finish] := rfl
  rw [code] at located ⊢
  have atElse := located.left.left.right
  have atOtherwise := located.left.right
  have atEnd := located.right
  simp only [List.length_append, ← Nat.add_assoc] at atElse atOtherwise atEnd
  refine ⟨_, _, _, rfl, rfl, rfl, located.left.left.left.left,
    located.left.left.left.right, atElse, atOtherwise, atEnd, ?_⟩
  simp only [List.length_append, List.length_cons, List.length_nil]
  omega

theorem Located.whileLoop
    (located : Located block position
      ((Statement.whileLoop condition body).code scope used)) :
    ∃ bodyAt endAt,
      bodyAt = position + 1 + (condition.conditionCode scope
        (LabelKind.while.pair (used .while)).finish).length ∧
      endAt = bodyAt + (body.code scope (used.next .while)).length ∧
      Located block position
        [.label (LabelKind.while.pair (used .while)).start] ∧
      Located block (position + 1) (condition.conditionCode scope
        (LabelKind.while.pair (used .while)).finish) ∧
      Located block bodyAt (body.code scope (used.next .while)) ∧
      Located block endAt
        [.goto (LabelKind.while.pair (used .while)).start,
          .label (LabelKind.while.pair (used .while)).finish] ∧
      position +
          ((Statement.whileLoop condition body).code scope used).length =
        endAt + 2 := by
  have code :
      (Statement.whileLoop condition body).code scope used =
        [.label (LabelKind.while.pair (used .while)).start] ++
          condition.conditionCode scope
            (LabelKind.while.pair (used .while)).finish ++
          body.code scope (used.next .while) ++
          [.goto (LabelKind.while.pair (used .while)).start,
            .label (LabelKind.while.pair (used .while)).finish] := by
    simp [Statement.code, Expression.conditionCode]
  rw [code] at located ⊢
  have atBody := located.left.right
  have atEnd := located.right
  simp only [List.length_append, ← Nat.add_assoc] at atBody atEnd
  refine ⟨_, _, rfl, rfl, located.left.left.left, located.left.left.right,
    atBody, atEnd, ?_⟩
  simp only [List.length_append, List.length_cons, List.length_nil]
  omega

end Layouts

/-! ## Statements that end -/

section Simulation

variable {callees : Callees} {block commands : List Command}
variable {scope : Scope} {declared : List String}

theorem finishes_of_executes {position : Nat} {machine : Machine}
    {before after : Store}
    (executes : Executes callees commands before [] after [])
    (located : Located block position commands)
    (rests : machine.Rests before) :
    Finishes callees block ⟨position, machine⟩
      (position + commands.length) .completed after := by
  obtain ⟨arrived, reaches, same⟩ :=
    reaches_executes executes located rests.1 rests.2
  exact ⟨arrived, reaches, same⟩

theorem finishes_of_return {position behind : Nat} {machine : Machine}
    {before after : Store} {result : Word}
    (executes : Executes callees commands before [] after [result])
    (located : Located block position (commands ++ [.return]))
    (rests : machine.Rests before) :
    Finishes callees block ⟨position, machine⟩ behind (.returned result)
      after := by
  obtain ⟨arrived, reaches, storeArrived, stackArrived⟩ :=
    reaches_executes executes located.left rests.1 rests.2
  exact ⟨_, reaches, ⟨located.right.head, stackArrived⟩, storeArrived⟩

/-- Behind the first part of a branch, execution leaves the branch. -/
theorem reaches_of_goto (distinct : (Command.labelsOf block).Nodup)
    {position place : Nat} {label : String} {others rest : List Command}
    (located : Located block position (.goto label :: others))
    (target : Located block place (.label label :: rest))
    (machine : Machine) :
    Reaches callees block ⟨position, machine⟩ ⟨place + 1, machine⟩ :=
  .step (next?_goto distinct located target) (reaches_label target)

mutual

/-- A statement that ends is executed to its end. -/
theorem Statement.Runs.finishes (known : scope.Declares declared)
    (distinct : (Command.labelsOf block).Nodup) :
    ∀ {one : Statement} {before : Store} {ending : Ending} {after : Store},
      one.Runs callees scope before ending after →
      ∀ {used : NumbersUsed} {position : Nat} {machine : Machine},
        one.Admissible declared →
        Located block position (one.code scope used) →
        machine.Rests before →
        Finishes callees block ⟨position, machine⟩
          (position + (one.code scope used).length) ending after
  | _, _, _, _, .letVariable evaluated, _, _, _, admissible, located,
      rests => by
      have pushes := Executes.of_evaluate known admissible.2 evaluated
      exact finishes_of_executes
        (pushes.append (.write known admissible.1 _)) located rests
  | _, _, _, _, .letElement indexed evaluated, _, _, _, admissible,
      located, rests =>
      finishes_of_executes
        (Executes.letElement known admissible indexed evaluated) located
        rests
  | _, _, _, _, .ifThen evaluated runsBody, _, _, _, admissible, located,
      rests => by
      obtain ⟨bodyAt, endAt, rfl, rfl, tested, bodyCode, atEnd, length⟩ :=
        located.ifThen
      obtain ⟨entered, reaches, restsEntered⟩ :=
        reaches_of_holds known admissible.1 tested rests evaluated
      have finishesBody :=
        runsBody.finishes known distinct admissible.2 bodyCode restsEntered
      rw [length]
      refine (finishesBody.extend fun machine => ?_).of_reaches reaches
      exact reaches_of_goto distinct atEnd atEnd.tail.tail machine
  | _, _, _, _, .ifSkip evaluated fails, _, _, _, admissible, located,
      rests => by
      obtain ⟨bodyAt, endAt, rfl, rfl, tested, _, atEnd, length⟩ :=
        located.ifThen
      obtain ⟨skipped, reaches, restsSkipped⟩ :=
        reaches_of_fails known distinct admissible.1 tested atEnd.tail
          rests evaluated fails
      rw [length]
      exact ⟨skipped, reaches.trans (reaches_label atEnd.tail.tail),
        restsSkipped⟩
  | _, _, _, _, .ifElseThen evaluated runsBody, _, _, _, admissible,
      located, rests => by
      obtain ⟨bodyAt, elseAt, endAt, rfl, rfl, rfl, tested, bodyCode, atElse,
        _, atEnd, length⟩ := located.ifElse
      obtain ⟨entered, reaches, restsEntered⟩ :=
        reaches_of_holds known admissible.1 tested rests evaluated
      have finishesBody :=
        runsBody.finishes known distinct admissible.2.1 bodyCode
          restsEntered
      rw [length]
      refine (finishesBody.extend fun machine => ?_).of_reaches reaches
      exact reaches_of_goto distinct atElse atEnd machine
  | _, _, _, _, .ifElseOtherwise evaluated fails runsOtherwise, _, _, _,
      admissible, located, rests => by
      obtain ⟨bodyAt, elseAt, endAt, rfl, rfl, rfl, tested, _, atElse,
        otherwiseCode, atEnd, length⟩ := located.ifElse
      obtain ⟨entered, reaches, restsEntered⟩ :=
        reaches_of_fails known distinct admissible.1 tested atElse.tail
          rests evaluated fails
      have finishesOtherwise :=
        runsOtherwise.finishes known distinct admissible.2.2 otherwiseCode
          restsEntered
      rw [length]
      refine (finishesOtherwise.extend fun machine => ?_).of_reaches reaches
      exact reaches_label atEnd
  | _, _, _, _, .whileDone evaluated fails, _, _, _, admissible, located,
      rests => by
      obtain ⟨bodyAt, endAt, rfl, rfl, atStart, tested, _, atEnd, length⟩ :=
        located.whileLoop
      obtain ⟨left, reaches, restsLeft⟩ :=
        reaches_of_fails known distinct admissible.1 tested atEnd.tail
          rests evaluated fails
      rw [length]
      exact ⟨left, (reaches_label atStart).trans reaches, restsLeft⟩
  | _, _, _, _, .whileAgain evaluated runsBody runsAgain, _, _, _,
      admissible, located, rests => by
      obtain ⟨bodyAt, endAt, rfl, rfl, atStart, tested, bodyCode, atEnd,
        _⟩ := located.whileLoop
      obtain ⟨entered, reaches, restsEntered⟩ :=
        reaches_of_holds known admissible.1 tested rests evaluated
      obtain ⟨left, reachesLeft, restsLeft⟩ :=
        runsBody.finishes known distinct admissible.2 bodyCode restsEntered
      have finishesAgain :=
        runsAgain.finishes known distinct admissible located restsLeft
      exact finishesAgain.of_reaches <|
        (reaches_label atStart).trans <| reaches.trans <|
          reachesLeft.trans (.one (next?_goto distinct atEnd atStart))
  | _, _, _, _, .whileReturn evaluated runsBody, _, _, _, admissible,
      located, rests => by
      obtain ⟨bodyAt, endAt, rfl, rfl, atStart, tested, bodyCode, _, _⟩ :=
        located.whileLoop
      obtain ⟨entered, reaches, restsEntered⟩ :=
        reaches_of_holds known admissible.1 tested rests evaluated
      have finishesBody :=
        runsBody.finishes known distinct admissible.2 bodyCode restsEntered
      exact finishesBody.of_reaches ((reaches_label atStart).trans reaches)
  | _, _, _, _, .doCall evaluated, _, _, _, admissible, located, rests => by
      have calls := Executes.of_evaluate_call known admissible evaluated
      exact finishes_of_executes (calls.append (.popTemp _)) located rests
  | _, _, _, _, .returnNothing, _, _, _, _, located, rests =>
      finishes_of_return (.pushConstant 0) located rests
  | _, _, _, _, .returnValue evaluated, _, _, _, admissible, located,
      rests => by
      have pushes := Executes.of_evaluate known admissible evaluated
      exact finishes_of_return pushes located rests

theorem Statements.Runs.finishes (known : scope.Declares declared)
    (distinct : (Command.labelsOf block).Nodup) :
    ∀ {body : Statements} {before : Store} {ending : Ending}
      {after : Store},
      body.Runs callees scope before ending after →
      ∀ {used : NumbersUsed} {position : Nat} {machine : Machine},
        body.Admissible declared →
        Located block position (body.code scope used) →
        machine.Rests before →
        Finishes callees block ⟨position, machine⟩
          (position + (body.code scope used).length) ending after
  | _, _, _, _, .nil, _, _, machine, _, _, rests =>
      ⟨machine, .refl _, rests⟩
  | _, _, _, _, .cons runsFirst runsOthers, _, _, _, admissible, located,
      rests => by
      obtain ⟨arrived, reaches, restsArrived⟩ :=
        runsFirst.finishes known distinct admissible.1 located.left rests
      have finishesOthers :=
        runsOthers.finishes known distinct admissible.2 located.right
          restsArrived
      rw [Nat.add_assoc, ← List.length_append] at finishesOthers
      exact finishesOthers.of_reaches reaches
  | _, _, _, _, .consReturn runsFirst, _, _, _, admissible, located,
      rests =>
      runsFirst.finishes known distinct admissible.1 located.left rests

end

/-! ## Statements that do not end -/

/-- Either something ends, or execution from a position goes on for as long as
one likes. -/
def EndsOrContinues (callees : Callees) (block : List Command)
    (runs : Store → Ending → Store → Prop) (position : Nat) : Prop :=
  ∀ (steps : Nat) {machine : Machine} {before : Store},
    machine.Rests before →
    (∃ ending after, runs before ending after) ∨
      Continues callees block steps ⟨position, machine⟩

theorem Expression.exists_evaluate (callees : Callees) (scope : Scope)
    (whole : Expression) (before : Store) :
    ∃ word after, whole.evaluate callees scope before = (word, after) :=
  ⟨_, _, rfl⟩

/-- A loop that neither ends nor returns makes a round, which executes at least
the jump back, and another one. -/
theorem endsOrContinues_whileLoop (known : scope.Declares declared)
    (distinct : (Command.labelsOf block).Nodup) {condition : Expression}
    {body : Statements} {used : NumbersUsed} {position : Nat}
    (admissible : (Statement.whileLoop condition body).Admissible declared)
    (located : Located block position
      ((Statement.whileLoop condition body).code scope used))
    (decidesBody : ∀ {position : Nat},
      Located block position (body.code scope (used.next .while)) →
      EndsOrContinues callees block (body.Runs callees scope) position) :
    EndsOrContinues callees block
      ((Statement.whileLoop condition body).Runs callees scope)
      position := by
  obtain ⟨bodyAt, endAt, rfl, rfl, atStart, tested, bodyCode, atEnd, _⟩ :=
    located.whileLoop
  -- The body is decided for the whole bound; only the loop itself is left to
  -- the induction, for one step less.
  intro steps
  induction steps with
  | zero =>
      intro machine before _
      exact Or.inr trivial
  | succ steps inductionHypothesis =>
      intro machine before rests
      obtain ⟨word, between, evaluated⟩ :=
        condition.exists_evaluate callees scope before
      by_cases holds : word = Word.yes
      · subst holds
        obtain ⟨entered, reaches, restsEntered⟩ :=
          reaches_of_holds known admissible.1 tested rests evaluated
        have reachesBody := (reaches_label atStart).trans reaches
        obtain ⟨ending, behind, runsBody⟩ | continues :=
          decidesBody bodyCode (steps + 1) restsEntered
        · cases ending with
          | returned result =>
              exact Or.inl ⟨_, _, .whileReturn evaluated runsBody⟩
          | completed =>
              obtain ⟨left, reachesLeft, restsLeft⟩ :=
                runsBody.finishes known distinct admissible.2 bodyCode
                  restsEntered
              obtain ⟨ending, after, runsAgain⟩ | continues :=
                inductionHypothesis restsLeft
              · exact Or.inl
                  ⟨_, _, .whileAgain evaluated runsBody runsAgain⟩
              · have back : Continues callees block (steps + 1) ⟨_, left⟩ :=
                  ⟨_, next?_goto distinct atEnd atStart, continues⟩
                exact Or.inr
                  (back.of_reaches (reachesBody.trans reachesLeft))
        · exact Or.inr (continues.of_reaches reachesBody)
      · exact Or.inl ⟨_, _, .whileDone evaluated holds⟩

mutual

theorem endsOrContinues_statement (known : scope.Declares declared)
    (distinct : (Command.labelsOf block).Nodup) :
    ∀ (one : Statement) {used : NumbersUsed} {position : Nat},
      one.Admissible declared →
      Located block position (one.code scope used) →
      EndsOrContinues callees block (one.Runs callees scope) position
  | .letVariable target value, _, _, _, _ => by
      intro _ _ before _
      obtain ⟨word, after, evaluated⟩ :=
        value.exists_evaluate callees scope before
      exact Or.inl ⟨_, _, .letVariable evaluated⟩
  | .letElement array index value, _, _, _, _ => by
      intro _ _ before _
      obtain ⟨offset, between, indexed⟩ :=
        index.exists_evaluate callees scope before
      obtain ⟨word, after, evaluated⟩ :=
        value.exists_evaluate callees scope between
      exact Or.inl ⟨_, _, .letElement indexed evaluated⟩
  | .ifThen condition body, _, _, admissible, located => by
      obtain ⟨bodyAt, endAt, rfl, rfl, tested, bodyCode, _, _⟩ :=
        located.ifThen
      intro steps machine before rests
      obtain ⟨word, between, evaluated⟩ :=
        condition.exists_evaluate callees scope before
      by_cases holds : word = Word.yes
      · subst holds
        obtain ⟨entered, reaches, restsEntered⟩ :=
          reaches_of_holds known admissible.1 tested rests evaluated
        obtain ⟨ending, after, runsBody⟩ | continues :=
          endsOrContinues_statements known distinct body admissible.2
            bodyCode steps restsEntered
        · exact Or.inl ⟨_, _, .ifThen evaluated runsBody⟩
        · exact Or.inr (continues.of_reaches reaches)
      · exact Or.inl ⟨_, _, .ifSkip evaluated holds⟩
  | .ifElse condition body otherwise, _, _, admissible, located => by
      obtain ⟨bodyAt, elseAt, endAt, rfl, rfl, rfl, tested, bodyCode, atElse,
        otherwiseCode, _, _⟩ := located.ifElse
      intro steps machine before rests
      obtain ⟨word, between, evaluated⟩ :=
        condition.exists_evaluate callees scope before
      by_cases holds : word = Word.yes
      · subst holds
        obtain ⟨entered, reaches, restsEntered⟩ :=
          reaches_of_holds known admissible.1 tested rests evaluated
        obtain ⟨ending, after, runsBody⟩ | continues :=
          endsOrContinues_statements known distinct body admissible.2.1
            bodyCode steps restsEntered
        · exact Or.inl ⟨_, _, .ifElseThen evaluated runsBody⟩
        · exact Or.inr (continues.of_reaches reaches)
      · obtain ⟨entered, reaches, restsEntered⟩ :=
          reaches_of_fails known distinct admissible.1 tested atElse.tail
            rests evaluated holds
        obtain ⟨ending, after, runsOtherwise⟩ | continues :=
          endsOrContinues_statements known distinct otherwise
            admissible.2.2 otherwiseCode steps restsEntered
        · exact Or.inl
            ⟨_, _, .ifElseOtherwise evaluated holds runsOtherwise⟩
        · exact Or.inr (continues.of_reaches reaches)
  | .whileLoop condition body, _, _, admissible, located =>
      endsOrContinues_whileLoop known distinct admissible located
        (endsOrContinues_statements known distinct body admissible.2)
  | .doCall target, _, _, _, _ => by
      intro _ _ before _
      exact Or.inl ⟨_, _, .doCall rfl⟩
  | .returnNothing, _, _, _, _ => by
      intro _ _ before _
      exact Or.inl ⟨_, _, .returnNothing⟩
  | .returnValue value, _, _, _, _ => by
      intro _ _ before _
      obtain ⟨word, after, evaluated⟩ :=
        value.exists_evaluate callees scope before
      exact Or.inl ⟨_, _, .returnValue evaluated⟩

theorem endsOrContinues_statements (known : scope.Declares declared)
    (distinct : (Command.labelsOf block).Nodup) :
    ∀ (body : Statements) {used : NumbersUsed} {position : Nat},
      body.Admissible declared →
      Located block position (body.code scope used) →
      EndsOrContinues callees block (body.Runs callees scope) position
  | .nil, _, _, _, _ => by
      intro _ _ before _
      exact Or.inl ⟨_, _, .nil⟩
  | .cons first others, _, _, admissible, located => by
      intro steps machine before rests
      obtain ⟨ending, between, runsFirst⟩ | continues :=
        endsOrContinues_statement known distinct first admissible.1
          located.left steps rests
      · cases ending with
        | returned result => exact Or.inl ⟨_, _, .consReturn runsFirst⟩
        | completed =>
            obtain ⟨arrived, reaches, restsArrived⟩ :=
              runsFirst.finishes known distinct admissible.1 located.left
                rests
            obtain ⟨ending, after, runsOthers⟩ | continues :=
              endsOrContinues_statements known distinct others
                admissible.2 located.right steps restsArrived
            · exact Or.inl ⟨_, _, .cons runsFirst runsOthers⟩
            · exact Or.inr (continues.of_reaches reaches)
      · exact Or.inr continues

end

end Simulation

end JackToVm
