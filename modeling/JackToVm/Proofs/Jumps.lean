import JackToVm.Proofs.Blocks
import JackToVm.Vm.ControlFlow

/-!
# Jumps stay inside their statement

A loop and a branch jump only to the two labels that they declare themselves.
So whatever label the code of some statements jumps to is declared in the same
code, and a jump never leaves the block of its subroutine.
-/

namespace JackToVm

namespace Command

/-- The labels that a list of commands jumps to. -/
def targetsOf (commands : List Command) : List String :=
  commands.filterMap target?

@[simp]
theorem targetsOf_nil : targetsOf [] = [] := rfl

@[simp]
theorem targetsOf_append (first second : List Command) :
    targetsOf (first ++ second) = targetsOf first ++ targetsOf second :=
  List.filterMap_append

@[simp]
theorem targetsOf_cons (command : Command) (commands : List Command) :
    targetsOf (command :: commands) =
      command.target?.toList ++ targetsOf commands := by
  cases target : command.target? <;> simp [targetsOf, target]

theorem mem_targetsOf {commands : List Command} {command : Command}
    {place : String} (member : command ∈ commands)
    (target : command.target? = some place) :
    place ∈ targetsOf commands :=
  List.mem_filterMap.mpr ⟨command, member, target⟩

theorem targetsOf_movesWords {commands : List Command}
    (moves : commands.all movesWords) : targetsOf commands = [] := by
  apply List.filterMap_eq_nil_iff.mpr
  intro command member
  have movesOne := List.all_eq_true.mp moves command member
  cases command <;> first
    | rfl
    | cases movesOne

/-- A label is declared as often as it stands among the labels. -/
theorem count_label (commands : List Command) (place : String) :
    commands.count (.label place) = (labelsOf commands).count place := by
  induction commands with
  | nil => rfl
  | cons command commands inductionHypothesis =>
      rw [labelsOf_cons, List.count_append, ← inductionHypothesis,
        List.count_cons, Nat.add_comm]
      cases command with
      | label other => simp [label?, List.count_singleton]
      | _ => rfl

theorem mem_labelsOf_iff {commands : List Command} {place : String} :
    place ∈ labelsOf commands ↔ .label place ∈ commands := by
  rw [← List.count_pos_iff, ← List.count_pos_iff, count_label]

theorem sublist_of_mem_blocks {commands block : List Command}
    (member : block ∈ blocks commands) : block.Sublist commands := by
  have whole : (blocks commands).flatten = commands :=
    List.flatten_splitBy _ commands
  rw [← whole]
  exact List.sublist_flatten_of_mem member

end Command

open Command

section Statements

variable (scope : Scope)

theorem targetsOf_expression (whole : Expression) :
    targetsOf (whole.code scope) = [] :=
  targetsOf_movesWords (whole.code_movesWords scope)

theorem targetsOf_ifThen (condition : Expression) (body : Statements)
    (used : NumbersUsed) :
    targetsOf ((Statement.ifThen condition body).code scope used) =
      (LabelKind.if.pair (used .if)).start ::
        (targetsOf (body.code scope (used.next .if)) ++
          [(LabelKind.if.pair (used .if)).finish]) := by
  simp [Statement.code, targetsOf_expression, target?]

theorem targetsOf_ifElse (condition : Expression)
    (body otherwise : Statements) (used : NumbersUsed) :
    targetsOf ((Statement.ifElse condition body otherwise).code scope used) =
      (LabelKind.if.pair (used .if)).start ::
        (targetsOf (body.code scope (used.next .if)) ++
          (LabelKind.if.pair (used .if)).finish ::
            targetsOf (otherwise.code scope
              ((used.next .if).behind body))) := by
  simp [Statement.code, targetsOf_expression, target?]

theorem targetsOf_whileLoop (condition : Expression) (body : Statements)
    (used : NumbersUsed) :
    targetsOf ((Statement.whileLoop condition body).code scope used) =
      (LabelKind.while.pair (used .while)).finish ::
        (targetsOf (body.code scope (used.next .while)) ++
          [(LabelKind.while.pair (used .while)).start]) := by
  simp [Statement.code, targetsOf_expression, target?]

mutual

theorem Statement.targetsOf_code_subset :
    ∀ (one : Statement) (used : NumbersUsed),
      targetsOf (one.code scope used) ⊆ labelsOf (one.code scope used)
  | .letVariable target value, used => by
      simp [Statement.code, targetsOf_expression,
        targetsOf_movesWords (scope.write_movesWords target)]
  | .letElement array index value, used => by
      simp [Statement.code, targetsOf_expression, Fragment.store, target?,
        targetsOf_movesWords (scope.read_movesWords array)]
  | .ifThen condition body, used => by
      have inner := body.targetsOf_code_subset (used.next .if)
      rw [targetsOf_ifThen, labelsOf_ifThen]
      intro place jumps
      rcases List.mem_cons.mp jumps with rfl | jumps
      · simp [LabelPair.labels]
      rcases List.mem_append.mp jumps with inBody | left
      · exact List.mem_append_left _ (inner inBody)
      · simp [LabelPair.labels, List.mem_singleton.mp left]
  | .ifElse condition body otherwise, used => by
      have inner := body.targetsOf_code_subset (used.next .if)
      have innerOtherwise :=
        otherwise.targetsOf_code_subset ((used.next .if).behind body)
      rw [targetsOf_ifElse, labelsOf_ifElse]
      intro place jumps
      rcases List.mem_cons.mp jumps with rfl | jumps
      · simp
      rcases List.mem_append.mp jumps with inBody | jumps
      · exact List.mem_append_left _ (inner inBody)
      rcases List.mem_cons.mp jumps with rfl | inOtherwise
      · simp
      · have declared := innerOtherwise inOtherwise
        simp [declared]
  | .whileLoop condition body, used => by
      have inner := body.targetsOf_code_subset (used.next .while)
      rw [targetsOf_whileLoop, labelsOf_whileLoop]
      intro place jumps
      rcases List.mem_cons.mp jumps with rfl | jumps
      · simp
      rcases List.mem_append.mp jumps with inBody | again
      · have declared := inner inBody
        simp [declared]
      · simp [List.mem_singleton.mp again]
  | .doCall target, used => by
      simp [Statement.code, target?,
        targetsOf_movesWords (target.code_movesWords scope)]
  | .returnNothing, _ => List.nil_subset _
  | .returnValue value, used => by
      simp [Statement.code, targetsOf_expression, target?]

theorem Statements.targetsOf_code_subset :
    ∀ (body : Statements) (used : NumbersUsed),
      targetsOf (body.code scope used) ⊆ labelsOf (body.code scope used)
  | .nil, _ => List.nil_subset _
  | .cons first others, used => by
      have inFirst := first.targetsOf_code_subset used
      have inOthers := others.targetsOf_code_subset
        (fun kind => used kind + first.count kind)
      rw [Statements.code, targetsOf_append, labelsOf_append]
      apply List.append_subset.mpr
      exact ⟨List.subset_append_of_subset_left _ inFirst,
        List.subset_append_of_subset_right _ inOthers⟩

end

end Statements

/-! ## Subroutines -/

theorem SubroutineDeclaration.targetsOf_code_subset
    (subroutine : SubroutineDeclaration) (className : String)
    (classTable : SymbolTable) (used : NumbersUsed) :
    targetsOf (subroutine.code className classTable used) ⊆
      labelsOf (subroutine.code className classTable used) := by
  have none :
      targetsOf (subroutine.opening className classTable) = [] := by
    unfold opening
    cases subroutine.kind <;> rfl
  rw [labelsOf_code, code, targetsOf_append, none, List.nil_append]
  exact subroutine.body.targetsOf_code_subset _ used

/-- A jump of a program leads to a label of its own block. -/
theorem ClassDeclaration.targetsOf_block_subset {declared : ClassDeclaration}
    {used : NumbersUsed} {block : List Command}
    (member : block ∈ Command.blocks (declared.program used).commands) :
    targetsOf block ⊆ labelsOf block := by
  rw [declared.blocks_program] at member
  obtain ⟨subroutine, _, usedBefore, rfl⟩ :=
    SubroutineDeclaration.mem_codeOfList _ _ member
  exact subroutine.targetsOf_code_subset _ _ usedBefore

end JackToVm
