import JackToVm.Proofs.Blocks
import JackToVm.Vm.Cell

/-!
# The commands that code is made of

Where every command in the code of a subroutine comes from: a constant of the
source, a variable that a name of the scope stands for, or one of the few
cells that the code uses by itself. What holds of all these holds of all code.
-/

namespace JackToVm

namespace DerivationTree

theorem yield_subset_of_mem {tree : DerivationTree}
    {trees : List DerivationTree} (member : tree ∈ trees) :
    tree.yield ⊆ yieldOfList trees :=
  fun _ within => mem_yieldOfList_iff.mpr ⟨tree, member, within⟩

/-- The tokens of the children of a branch are among those of the trees around
it. -/
theorem yieldOfList_subset_of_mem (node : Node)
    {children trees : List DerivationTree}
    (member : .branch node children ∈ trees) :
    yieldOfList children ⊆ yieldOfList trees :=
  yield_subset_of_mem member

end DerivationTree

open DerivationTree (yieldOfList yieldOfList_append yield_subset_of_mem
  yieldOfList_subset_of_mem)

/-- Where a command in the code of some part of a subroutine comes from. The
part derives the tokens. -/
inductive Emitted (scope : Scope) (tokens : List Token) : Command → Prop where
  | integer {value : Nat} :
      .integer value ∈ tokens → Emitted scope tokens (.push .constant value)
  | string {content : String} {command : Command} :
      .string content ∈ tokens → command ∈ Fragment.string content →
      Emitted scope tokens command
  | constant {word : KeywordConstant} {command : Command} :
      command ∈ word.commands → Emitted scope tokens command
  /-- The result of a `return` without an expression. -/
  | noResult : Emitted scope tokens (.push .constant 0)
  /-- The receiver of a call on the current object. -/
  | receiver : Emitted scope tokens (.push .pointer 0)
  | read {name : String} {resolved : Variable} :
      scope.resolve? name = some resolved →
      Emitted scope tokens resolved.push
  | write {name : String} {resolved : Variable} :
      scope.resolve? name = some resolved →
      Emitted scope tokens resolved.pop
  | load {command : Command} :
      command ∈ Fragment.load → Emitted scope tokens command
  | store {command : Command} :
      command ∈ Fragment.store → Emitted scope tokens command
  /-- The result of a call that nothing uses. -/
  | dropped : Emitted scope tokens (.pop .temp 0)
  /-- Calls, operations, jumps, labels and returns. -/
  | other {command : Command} :
      command.cell? = none → Emitted scope tokens command

/-- Every one of some commands comes from somewhere. -/
def EmittedAll (scope : Scope) (tokens : List Token)
    (commands : List Command) : Prop :=
  ∀ command ∈ commands, Emitted scope tokens command

section Emitted

variable {scope : Scope} {tokens others : List Token}
variable {first second commands : List Command} {command : Command}

theorem Emitted.mono (emitted : Emitted scope tokens command)
    (within : tokens ⊆ others) : Emitted scope others command := by
  cases emitted with
  | integer member => exact .integer (within member)
  | string member inside => exact .string (within member) inside
  | constant inside => exact .constant inside
  | noResult => exact .noResult
  | receiver => exact .receiver
  | read resolved => exact .read resolved
  | write resolved => exact .write resolved
  | load inside => exact .load inside
  | store inside => exact .store inside
  | dropped => exact .dropped
  | other without => exact .other without

namespace EmittedAll

theorem mono (emitted : EmittedAll scope tokens commands)
    (within : tokens ⊆ others) : EmittedAll scope others commands :=
  fun command member => (emitted command member).mono within

theorem nil : EmittedAll scope tokens [] := by
  intro command member
  cases member

theorem cons (emitted : Emitted scope tokens command)
    (emittedOthers : EmittedAll scope tokens commands) :
    EmittedAll scope tokens (command :: commands) :=
  List.forall_mem_cons.mpr ⟨emitted, emittedOthers⟩

theorem one (emitted : Emitted scope tokens command) :
    EmittedAll scope tokens [command] :=
  cons emitted nil

theorem append (emittedFirst : EmittedAll scope tokens first)
    (emittedSecond : EmittedAll scope tokens second) :
    EmittedAll scope tokens (first ++ second) :=
  List.forall_mem_append.mpr ⟨emittedFirst, emittedSecond⟩

theorem read (name : String) :
    EmittedAll scope tokens (scope.read name) := by
  unfold Scope.read
  cases resolved : scope.resolve? name with
  | none => exact nil
  | some found => exact one (.read resolved)

theorem write (name : String) :
    EmittedAll scope tokens (scope.write name) := by
  unfold Scope.write
  cases resolved : scope.resolve? name with
  | none => exact nil
  | some found => exact one (.write resolved)

end EmittedAll

end Emitted

theorem BinaryOperator.cell?_command (operator : BinaryOperator) :
    operator.command.cell? = none := by
  cases operator <;> rfl

theorem UnaryOperator.cell?_command (operator : UnaryOperator) :
    operator.command.cell? = none := by
  cases operator <;> rfl

/-! ## Expressions -/

section Expressions

variable (scope : Scope)

mutual

theorem Expression.emitted_code :
    ∀ whole : Expression,
      EmittedAll scope (yieldOfList whole.children) (whole.code scope)
  | .term only =>
      only.emitted_code.mono
        (yieldOfList_subset_of_mem .term List.mem_cons_self)
  | .binary left operator right => by
      have withinLeft :
          yieldOfList left.children ⊆
            yieldOfList (Expression.binary left operator right).children := by
        rw [Expression.children, yieldOfList_append]
        exact List.subset_append_left _ _
      have withinRight :
          yieldOfList right.children ⊆
            yieldOfList (Expression.binary left operator right).children :=
        yieldOfList_subset_of_mem .term (by simp [Expression.children])
      have first := left.emitted_code.mono withinLeft
      have second := right.emitted_code.mono withinRight
      exact (first.append second).append
        (.one (.other operator.cell?_command))

theorem Term.emitted_code :
    ∀ operand : Term,
      EmittedAll scope (yieldOfList operand.children) (operand.code scope)
  | .integer value => .one (.integer List.mem_cons_self)
  | .string content => by
      intro command inside
      exact .string List.mem_cons_self inside
  | .constant word => by
      intro command inside
      exact .constant inside
  | .variable name => .read name
  | .element array index => by
      have within :
          yieldOfList index.children ⊆
            yieldOfList (Term.element array index).children :=
        yieldOfList_subset_of_mem .expression (by simp [Term.children])
      have offset := index.emitted_code.mono within
      have loads :
          EmittedAll scope (yieldOfList (Term.element array index).children)
            (.operation .add :: Fragment.load) :=
        .cons (.other rfl) fun _ inside => .load inside
      exact (EmittedAll.append (.read array) offset).append loads
  | .call target => target.emitted_code
  | .group inner =>
      inner.emitted_code.mono
        (yieldOfList_subset_of_mem .expression (by simp [Term.children]))
  | .unary operator operand => by
      have within :
          yieldOfList operand.children ⊆
            yieldOfList (Term.unary operator operand).children :=
        yieldOfList_subset_of_mem .term (by simp [Term.children])
      exact (operand.emitted_code.mono within).append
        (.one (.other operator.cell?_command))

theorem SubroutineCall.emitted_code :
    ∀ target : SubroutineCall,
      EmittedAll scope (yieldOfList target.children) (target.code scope)
  | .own name arguments => by
      have within :
          yieldOfList arguments.children ⊆
            yieldOfList (SubroutineCall.own name arguments).children :=
        yieldOfList_subset_of_mem .expressionList
          (by simp [SubroutineCall.children])
      have values := arguments.emitted_code.mono within
      exact (EmittedAll.cons .receiver values).append (.one (.other rfl))
  | .through owner name arguments => by
      have within :
          yieldOfList arguments.children ⊆
            yieldOfList
              (SubroutineCall.through owner name arguments).children :=
        yieldOfList_subset_of_mem .expressionList
          (by simp [SubroutineCall.children])
      have values := arguments.emitted_code.mono within
      unfold SubroutineCall.code
      cases resolved : scope.resolve? owner with
      | some receiver =>
          exact (EmittedAll.cons (.read resolved) values).append
            (.one (.other rfl))
      | none => exact values.append (.one (.other rfl))

theorem ExpressionList.emitted_code :
    ∀ arguments : ExpressionList,
      EmittedAll scope (yieldOfList arguments.children)
        (arguments.code scope)
  | .nil => .nil
  | .cons first others => by
      have withinFirst :
          yieldOfList first.children ⊆
            yieldOfList (ExpressionList.cons first others).children :=
        yieldOfList_subset_of_mem .expression
          (by simp [ExpressionList.children])
      have withinOthers :
          yieldOfList others.continued ⊆
            yieldOfList (ExpressionList.cons first others).children := by
        rw [ExpressionList.children]
        exact List.subset_append_right _ _
      have value := first.emitted_code.mono withinFirst
      have values := others.emitted_continued.mono withinOthers
      exact value.append values

theorem ExpressionList.emitted_continued :
    ∀ arguments : ExpressionList,
      EmittedAll scope (yieldOfList arguments.continued)
        (arguments.code scope)
  | .nil => .nil
  | .cons first others => by
      have withinFirst :
          yieldOfList first.children ⊆
            yieldOfList (ExpressionList.cons first others).continued :=
        yieldOfList_subset_of_mem .expression
          (by simp [ExpressionList.continued])
      have withinOthers :
          yieldOfList others.continued ⊆
            yieldOfList (ExpressionList.cons first others).continued := by
        rw [ExpressionList.continued, yieldOfList, yieldOfList]
        intro token member
        simp [member]
      have value := first.emitted_code.mono withinFirst
      have values := others.emitted_continued.mono withinOthers
      exact value.append values

end

end Expressions

/-! ## Statements -/

section Statements

variable (scope : Scope)

theorem Expression.emitted_condition (condition : Expression)
    (otherwise : String) :
    EmittedAll scope condition.derivation.yield
      (condition.code scope ++
        [.operation .not, .ifGoto otherwise]) :=
  (condition.emitted_code scope).append
    (.cons (.other rfl) (.one (.other rfl)))

mutual

theorem Statement.emitted_code :
    ∀ (one : Statement) (used : NumbersUsed),
      EmittedAll scope one.derivation.yield (one.code scope used)
  | .letVariable target value, used => by
      have within :
          value.derivation.yield ⊆
            (Statement.letVariable target value).derivation.yield :=
        yield_subset_of_mem (by simp)
      exact ((value.emitted_code scope).mono within).append (.write target)
  | .letElement array index value, used => by
      have withinIndex :
          index.derivation.yield ⊆
            (Statement.letElement array index value).derivation.yield :=
        yield_subset_of_mem (by simp)
      have withinValue :
          value.derivation.yield ⊆
            (Statement.letElement array index value).derivation.yield :=
        yield_subset_of_mem (by simp)
      have offset := (index.emitted_code scope).mono withinIndex
      have assigned := (value.emitted_code scope).mono withinValue
      have address := EmittedAll.append (.read array) offset
      have stores : EmittedAll scope
          (Statement.letElement array index value).derivation.yield
          Fragment.store := fun _ inside => .store inside
      exact (address.append (.cons (.other rfl) assigned)).append stores
  | .ifThen condition body, used => by
      have withinCondition :
          condition.derivation.yield ⊆
            (Statement.ifThen condition body).derivation.yield :=
        yield_subset_of_mem (by simp)
      have withinBody :
          yieldOfList body.children ⊆
            (Statement.ifThen condition body).derivation.yield :=
        yieldOfList_subset_of_mem .statements (by simp)
      have tested :=
        (condition.emitted_condition scope
          (LabelKind.if.pair (used .if)).start).mono withinCondition
      have inner := (body.emitted_code (used.next .if)).mono withinBody
      exact (tested.append inner).append
        (.cons (.other rfl) (.cons (.other rfl) (.one (.other rfl))))
  | .ifElse condition body otherwise, used => by
      have withinCondition :
          condition.derivation.yield ⊆
            (Statement.ifElse condition body otherwise).derivation.yield :=
        yield_subset_of_mem (by simp)
      have withinBody :
          yieldOfList body.children ⊆
            (Statement.ifElse condition body otherwise).derivation.yield :=
        yieldOfList_subset_of_mem .statements (by simp)
      have withinOtherwise :
          yieldOfList otherwise.children ⊆
            (Statement.ifElse condition body otherwise).derivation.yield :=
        yieldOfList_subset_of_mem .statements (by simp)
      have tested :=
        (condition.emitted_condition scope
          (LabelKind.if.pair (used .if)).start).mono withinCondition
      have inner := (body.emitted_code (used.next .if)).mono withinBody
      have innerOtherwise := (otherwise.emitted_code
        ((used.next .if).behind body)).mono withinOtherwise
      exact (((tested.append inner).append
        (.cons (.other rfl) (.one (.other rfl)))).append
          innerOtherwise).append (.one (.other rfl))
  | .whileLoop condition body, used => by
      have withinCondition :
          condition.derivation.yield ⊆
            (Statement.whileLoop condition body).derivation.yield :=
        yield_subset_of_mem (by simp)
      have withinBody :
          yieldOfList body.children ⊆
            (Statement.whileLoop condition body).derivation.yield :=
        yieldOfList_subset_of_mem .statements (by simp)
      have tested :=
        (condition.emitted_condition scope
          (LabelKind.while.pair (used .while)).finish).mono withinCondition
      have inner := (body.emitted_code (used.next .while)).mono withinBody
      exact (EmittedAll.cons (.other rfl) (tested.append inner)).append
        (.cons (.other rfl) (.one (.other rfl)))
  | .doCall target, used => by
      have within :
          yieldOfList target.children ⊆
            (Statement.doCall target).derivation.yield := by
        simp only [Statement.derivation, DerivationTree.yield, yieldOfList,
          List.cons_append, yieldOfList_append]
        intro token member
        simp [member]
      exact ((target.emitted_code scope).mono within).append
        (.one .dropped)
  | .returnNothing, _ => .cons .noResult (.one (.other rfl))
  | .returnValue value, used => by
      have within :
          value.derivation.yield ⊆
            (Statement.returnValue value).derivation.yield :=
        yield_subset_of_mem (by simp)
      exact ((value.emitted_code scope).mono within).append
        (.one (.other rfl))

theorem Statements.emitted_code :
    ∀ (body : Statements) (used : NumbersUsed),
      EmittedAll scope (yieldOfList body.children) (body.code scope used)
  | .nil, _ => .nil
  | .cons first others, used => by
      have one := (first.emitted_code used).mono
        (List.subset_append_left _ (yieldOfList others.children))
      have rest := (others.emitted_code
        fun kind => used kind + first.count kind).mono
          (List.subset_append_right first.derivation.yield _)
      exact one.append rest

end

end Statements

/-! ## Subroutines -/

/-- Where the commands behind the head of a subroutine come from: its prologue
or its body. -/
theorem SubroutineDeclaration.emitted_body
    (subroutine : SubroutineDeclaration) (className : String)
    (classTable : SymbolTable) (used : NumbersUsed) {command : Command}
    (member : command ∈
      subroutine.kind.prologue (classTable.count .field) ++
        subroutine.body.code (subroutine.scope className classTable)
          used) :
    command ∈ subroutine.kind.prologue (classTable.count .field) ∨
      Emitted (subroutine.scope className classTable)
        subroutine.derivation.yield command := by
  rcases List.mem_append.mp member with inPrologue | inBody
  · exact Or.inl inPrologue
  · have emitted := subroutine.body.emitted_code
      (subroutine.scope className classTable) used command inBody
    have withinBody :
        yieldOfList subroutine.body.children ⊆
          subroutine.bodyDerivation.yield :=
      yieldOfList_subset_of_mem .statements
        (by simp [Statements.derivation])
    have within :
        subroutine.bodyDerivation.yield ⊆ subroutine.derivation.yield :=
      yield_subset_of_mem (by simp)
    exact Or.inr (emitted.mono (List.Subset.trans withinBody within))

theorem ClassDeclaration.yield_subset {declared : ClassDeclaration}
    {subroutine : SubroutineDeclaration}
    (member : subroutine ∈ declared.subroutines) :
    subroutine.derivation.yield ⊆ declared.derivation.yield := by
  refine yield_subset_of_mem ?_
  have mapped := List.mem_map_of_mem (f := SubroutineDeclaration.derivation)
    member
  simp only [List.mem_append]
  exact Or.inl (Or.inr mapped)

end JackToVm
