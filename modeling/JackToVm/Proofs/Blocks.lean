import JackToVm.Grammar.Code
import JackToVm.Proofs.Labels
import JackToVm.Vm.Execution
import Mathlib.Data.List.SplitBy

/-!
# The blocks of compiled programs

The code of an expression holds no jump and no label, the code of statements
opens no block, and no label stands twice in it. So the blocks of a compiled
program are the codes of its subroutines, and a jump finds its label.
-/

namespace JackToVm

namespace Command

/-- Whether a command only moves words: it does not jump, and nothing jumps to
it. -/
def movesWords : Command → Bool
  | .push _ _ | .pop _ _ | .call _ _ | .operation _ => true
  | .function _ _ | .goto _ | .ifGoto _ | .label _ | .return => false

/-- The label at a place. -/
def label? : Command → Option String
  | .label place => some place
  | _ => none

/-- The labels of a list of commands. -/
def labelsOf (commands : List Command) : List String :=
  commands.filterMap label?

@[simp]
theorem labelsOf_append (first second : List Command) :
    labelsOf (first ++ second) = labelsOf first ++ labelsOf second :=
  List.filterMap_append

@[simp]
theorem labelsOf_cons (command : Command) (commands : List Command) :
    labelsOf (command :: commands) =
      command.label?.toList ++ labelsOf commands := by
  cases label : command.label? <;> simp [labelsOf, label]

@[simp]
theorem labelsOf_nil : labelsOf [] = [] := rfl

theorem labelsOf_movesWords {commands : List Command}
    (moves : commands.all movesWords) : labelsOf commands = [] := by
  refine List.filterMap_eq_nil_iff.mpr ?_
  intro command member
  have movesOne := List.all_eq_true.mp moves command member
  cases command <;> first
    | rfl
    | cases movesOne

theorem continuesBlock_of_movesWords {commands : List Command}
    (moves : commands.all movesWords) :
    commands.all continuesBlock := by
  refine List.all_eq_true.mpr ?_
  intro command member
  have movesOne := List.all_eq_true.mp moves command member
  cases command <;> first
    | rfl
    | cases movesOne

end Command

open Command

/-! ## Expressions -/

theorem Scope.read_movesWords (scope : Scope) (name : String) :
    (scope.read name).all movesWords := by
  unfold Scope.read
  cases scope.resolve? name <;> rfl

theorem Scope.write_movesWords (scope : Scope) (name : String) :
    (scope.write name).all movesWords := by
  unfold Scope.write
  cases scope.resolve? name <;> rfl

theorem Fragment.string_movesWords (content : String) :
    (Fragment.string content).all movesWords := by
  simp [Fragment.string, movesWords]

theorem KeywordConstant.commands_movesWords (word : KeywordConstant) :
    word.commands.all movesWords := by
  cases word <;> rfl

theorem BinaryOperator.command_movesWords (operator : BinaryOperator) :
    operator.command.movesWords := by
  cases operator <;> rfl

theorem UnaryOperator.command_movesWords (operator : UnaryOperator) :
    operator.command.movesWords := by
  cases operator <;> rfl

section Expressions

variable (scope : Scope)

mutual

theorem Expression.code_movesWords :
    ∀ whole : Expression, (whole.code scope).all movesWords
  | .term only => by
      rw [Expression.code]
      exact only.code_movesWords
  | .binary left operator right => by
      simp [Expression.code, left.code_movesWords, right.code_movesWords,
        operator.command_movesWords]

theorem Term.code_movesWords :
    ∀ operand : Term, (operand.code scope).all movesWords
  | .integer _ => rfl
  | .string content => Fragment.string_movesWords content
  | .constant word => word.commands_movesWords
  | .variable name => scope.read_movesWords name
  | .element array index => by
      simp [Term.code, scope.read_movesWords, index.code_movesWords,
        Fragment.load, movesWords]
  | .call target => by
      rw [Term.code]
      exact target.code_movesWords
  | .group inner => by
      rw [Term.code]
      exact inner.code_movesWords
  | .unary operator operand => by
      simp [Term.code, operand.code_movesWords,
        operator.command_movesWords]

theorem SubroutineCall.code_movesWords :
    ∀ target : SubroutineCall, (target.code scope).all movesWords
  | .own _ arguments => by
      simp [SubroutineCall.code, arguments.code_movesWords, movesWords]
  | .through owner _ arguments => by
      unfold SubroutineCall.code
      cases scope.resolve? owner <;>
        simp [arguments.code_movesWords, movesWords, Variable.push]

theorem ExpressionList.code_movesWords :
    ∀ arguments : ExpressionList, (arguments.code scope).all movesWords
  | .nil => rfl
  | .cons first others => by
      simp [ExpressionList.code, first.code_movesWords,
        others.code_movesWords]

end

end Expressions

/-! ## Labels of statements -/

section Statements

variable (scope : Scope)

theorem labelsOf_expression (whole : Expression) :
    labelsOf (whole.code scope) = [] :=
  labelsOf_movesWords (whole.code_movesWords scope)

theorem labelsOf_ifThen (condition : Expression) (body : Statements)
    (used : NumbersUsed) :
    labelsOf ((Statement.ifThen condition body).code scope used) =
      labelsOf (body.code scope (used.next .if)) ++
        (LabelKind.if.pair (used .if)).labels := by
  simp [Statement.code, labelsOf_expression, label?, LabelPair.labels]

theorem labelsOf_ifElse (condition : Expression)
    (body otherwise : Statements) (used : NumbersUsed) :
    labelsOf ((Statement.ifElse condition body otherwise).code scope used) =
      labelsOf (body.code scope (used.next .if)) ++
        (LabelKind.if.pair (used .if)).start ::
          (labelsOf (otherwise.code scope ((used.next .if).behind body)) ++
            [(LabelKind.if.pair (used .if)).finish]) := by
  simp [Statement.code, labelsOf_expression, label?]

theorem labelsOf_whileLoop (condition : Expression) (body : Statements)
    (used : NumbersUsed) :
    labelsOf ((Statement.whileLoop condition body).code scope used) =
      (LabelKind.while.pair (used .while)).start ::
        (labelsOf (body.code scope (used.next .while)) ++
          [(LabelKind.while.pair (used .while)).finish]) := by
  simp [Statement.code, labelsOf_expression, label?]

theorem NumbersUsed.add_count_ifThen (used : NumbersUsed)
    (condition : Expression) (body : Statements) :
    (fun kind => used kind + (Statement.ifThen condition body).count kind) =
      (used.next .if).behind body := by
  funext kind
  cases kind <;>
    simp [Statement.count, behind, next, one, Nat.add_assoc, Nat.add_comm]

theorem NumbersUsed.add_count_ifElse (used : NumbersUsed)
    (condition : Expression) (body otherwise : Statements) :
    (fun kind => used kind +
        (Statement.ifElse condition body otherwise).count kind) =
      ((used.next .if).behind body).behind otherwise := by
  funext kind
  cases kind <;> simp [Statement.count, behind, next, one] <;> omega

theorem NumbersUsed.add_count_whileLoop (used : NumbersUsed)
    (condition : Expression) (body : Statements) :
    (fun kind => used kind +
        (Statement.whileLoop condition body).count kind) =
      (used.next .while).behind body := by
  funext kind
  cases kind <;>
    simp [Statement.count, behind, next, one, Nat.add_assoc, Nat.add_comm]

/-- A statement that takes a number itself has its two labels beside those of
the statements inside. -/
theorem TakenLabels.enclose {used behind : NumbersUsed} {kind : LabelKind}
    {inner labels : List String}
    (taken : TakenLabels (used.next kind) behind inner)
    (above : ∀ asked, used.next kind asked ≤ behind asked)
    (permuted : labels.Perm
      ((LabelKind.pair kind (used kind)).labels ++ inner)) :
    TakenLabels used behind labels :=
  ((TakenLabels.pair used kind).append taken
    (fun _ => Nat.le_add_right _ _) above).perm permuted

mutual

theorem takenLabels_statement :
    ∀ (one : Statement) (used : NumbersUsed),
      TakenLabels used (fun kind => used kind + one.count kind)
        (labelsOf (one.code scope used))
  | .letVariable target value, used => by
      have none : labelsOf
          ((Statement.letVariable target value).code scope used) = [] := by
        simp [Statement.code, labelsOf_expression,
          labelsOf_movesWords (scope.write_movesWords target)]
      rw [none]
      exact .nil
  | .letElement array index value, used => by
      have none : labelsOf
          ((Statement.letElement array index value).code scope used) =
            [] := by
        simp [Statement.code, labelsOf_expression, Fragment.store,
          labelsOf_movesWords (scope.read_movesWords array), label?]
      rw [none]
      exact .nil
  | .ifThen condition body, used => by
      have inner := takenLabels_statements body (used.next .if)
      rw [labelsOf_ifThen, NumbersUsed.add_count_ifThen]
      exact inner.enclose (fun _ => Nat.le_add_right _ _)
        List.perm_append_comm
  | .ifElse condition body otherwise, used => by
      have innerBody := takenLabels_statements body (used.next .if)
      have innerOtherwise := takenLabels_statements otherwise
        ((used.next .if).behind body)
      rw [labelsOf_ifElse, NumbersUsed.add_count_ifElse]
      have inner := innerBody.append innerOtherwise
        (fun _ => Nat.le_add_right _ _) (fun _ => Nat.le_add_right _ _)
      have above : ∀ kind, used.next .if kind ≤
          ((used.next .if).behind body).behind otherwise kind := by
        intro kind
        simp only [NumbersUsed.behind]
        omega
      refine inner.enclose above ?_
      refine List.perm_middle.trans (List.Perm.cons _ ?_)
      rw [← List.append_assoc]
      exact List.perm_append_comm
  | .whileLoop condition body, used => by
      have inner := takenLabels_statements body (used.next .while)
      rw [labelsOf_whileLoop, NumbersUsed.add_count_whileLoop]
      exact inner.enclose (fun _ => Nat.le_add_right _ _)
        (List.Perm.cons _ List.perm_append_comm)
  | .doCall target, used => by
      have none : labelsOf
          ((Statement.doCall target).code scope used) = [] := by
        simp [Statement.code, label?,
          labelsOf_movesWords (target.code_movesWords scope)]
      rw [none]
      exact .nil
  | .returnNothing, used => .nil
  | .returnValue value, used => by
      have none : labelsOf
          ((Statement.returnValue value).code scope used) = [] := by
        simp [Statement.code, label?, labelsOf_expression]
      rw [none]
      exact .nil

theorem takenLabels_statements :
    ∀ (body : Statements) (used : NumbersUsed),
      TakenLabels used (used.behind body)
        (labelsOf (body.code scope used))
  | .nil, used => .nil
  | .cons first others, used => by
      have takenFirst := takenLabels_statement first used
      have takenOthers := takenLabels_statements others
        (fun kind => used kind + first.count kind)
      have numbers :
          used.behind (.cons first others) =
            NumbersUsed.behind (fun kind => used kind + first.count kind)
              others := by
        funext kind
        simp only [NumbersUsed.behind, Statements.count, Nat.add_assoc]
      rw [numbers, Statements.code, labelsOf_append]
      exact takenFirst.append takenOthers (fun _ => Nat.le_add_right _ _)
        (fun _ => Nat.le_add_right _ _)

end

/-! ## Blocks -/

mutual

theorem Statement.code_continuesBlock :
    ∀ (one : Statement) (used : NumbersUsed),
      (one.code scope used).all continuesBlock
  | .letVariable target value, used => by
      simp only [Statement.code, List.all_append, Bool.and_self,
        continuesBlock_of_movesWords (value.code_movesWords scope),
        continuesBlock_of_movesWords (scope.write_movesWords target)]
  | .letElement array index value, used => by
      simp only [Statement.code, Fragment.store, List.all_append,
        List.all_cons, List.all_nil, continuesBlock, Bool.and_self,
        continuesBlock_of_movesWords (scope.read_movesWords array),
        continuesBlock_of_movesWords (index.code_movesWords scope),
        continuesBlock_of_movesWords (value.code_movesWords scope)]
  | .ifThen condition body, used => by
      simp only [Statement.code, List.all_append, List.all_cons,
        List.all_nil, continuesBlock, Bool.and_self, body.code_continuesBlock,
        continuesBlock_of_movesWords (condition.code_movesWords scope)]
  | .ifElse condition body otherwise, used => by
      simp only [Statement.code, List.all_append, List.all_cons,
        List.all_nil, continuesBlock, Bool.and_self, body.code_continuesBlock,
        otherwise.code_continuesBlock,
        continuesBlock_of_movesWords (condition.code_movesWords scope)]
  | .whileLoop condition body, used => by
      simp only [Statement.code, List.all_append, List.all_cons,
        List.all_nil, continuesBlock, Bool.and_self, body.code_continuesBlock,
        continuesBlock_of_movesWords (condition.code_movesWords scope)]
  | .doCall target, used => by
      simp only [Statement.code, List.all_append, List.all_cons,
        List.all_nil, continuesBlock, Bool.and_self,
        continuesBlock_of_movesWords (target.code_movesWords scope)]
  | .returnNothing, used => rfl
  | .returnValue value, used => by
      simp only [Statement.code, List.all_append, List.all_cons,
        List.all_nil, continuesBlock, Bool.and_self,
        continuesBlock_of_movesWords (value.code_movesWords scope)]

theorem Statements.code_continuesBlock :
    ∀ (body : Statements) (used : NumbersUsed),
      (body.code scope used).all continuesBlock
  | .nil, _ => rfl
  | .cons first others, used => by
      rw [Statements.code, List.all_append,
        first.code_continuesBlock, others.code_continuesBlock]
      rfl

end

end Statements

/-- A block begins with a command that opens it, and with no other. -/
def IsBlock : List Command → Prop
  | [] => False
  | first :: others =>
      first.continuesBlock = false ∧ others.all continuesBlock

theorem blocks_flatten {blocks : List (List Command)}
    (areBlocks : ∀ block ∈ blocks, IsBlock block) :
    Command.blocks blocks.flatten = blocks := by
  have notEmpty : [] ∉ blocks := by
    intro member
    exact areBlocks [] member
  refine List.splitBy_flatten notEmpty ?_ ?_
  · intro block member
    have isBlock := areBlocks block member
    cases block with
    | nil => exact List.isChain_nil
    | cons first others =>
        have continues := List.all_eq_true.mp isBlock.2
        refine List.Pairwise.isChain (List.pairwise_cons.mpr ⟨?_, ?_⟩)
        · exact continues
        · exact List.pairwise_of_forall_mem_list
            fun _ _ next later => continues next later
  · refine List.Pairwise.isChain
      (List.pairwise_of_forall_mem_list fun block member next later => ?_)
    have isBlock := areBlocks next later
    cases block with
    | nil => exact absurd member notEmpty
    | cons first others =>
        cases next with
        | nil => exact absurd later notEmpty
        | cons opening behind =>
            exact ⟨List.cons_ne_nil _ _, List.cons_ne_nil _ _, isBlock.1⟩

/-! ## Subroutines -/

namespace SubroutineDeclaration

variable (className : String) (classTable : SymbolTable)

theorem isBlock_code (subroutine : SubroutineDeclaration)
    (used : NumbersUsed) :
    IsBlock (subroutine.code className classTable used) := by
  have prologue :
      (subroutine.kind.prologue (classTable.count .field)).all
        continuesBlock := by
    cases subroutine.kind <;> rfl
  refine ⟨rfl, ?_⟩
  rw [List.append_eq, List.all_append, prologue,
    subroutine.body.code_continuesBlock]
  rfl

theorem labelsOf_code (subroutine : SubroutineDeclaration)
    (used : NumbersUsed) :
    labelsOf (subroutine.code className classTable used) =
      labelsOf (subroutine.body.code
        (subroutine.scope className classTable) used) := by
  have none :
      labelsOf (subroutine.opening className classTable) = [] := by
    unfold opening
    cases subroutine.kind <;> rfl
  rw [code, labelsOf_append, none, List.nil_append]

theorem nodup_labelsOf_code (subroutine : SubroutineDeclaration)
    (used : NumbersUsed) :
    (labelsOf (subroutine.code className classTable used)).Nodup := by
  rw [labelsOf_code]
  exact (takenLabels_statements _ subroutine.body used).nodup

theorem isBlock_codeOfList (subroutines : List SubroutineDeclaration) :
    ∀ (used : NumbersUsed),
      ∀ block ∈ codeOfList className classTable subroutines used,
        IsBlock block := by
  induction subroutines with
  | nil =>
      intro used block member
      cases member
  | cons first others inductionHypothesis =>
      intro used
      exact List.forall_mem_cons.mpr
        ⟨first.isBlock_code className classTable used,
          inductionHypothesis _⟩

theorem length_codeOfList (subroutines : List SubroutineDeclaration) :
    ∀ (used : NumbersUsed),
      (codeOfList className classTable subroutines used).length =
        subroutines.length := by
  induction subroutines with
  | nil =>
      intro used
      rfl
  | cons first others inductionHypothesis =>
      intro used
      rw [codeOfList, List.length_cons, inductionHypothesis,
        List.length_cons]

/-- The blocks of a program are the codes of its subroutines. -/
theorem getElem?_codeOfList (subroutines : List SubroutineDeclaration) :
    ∀ (used : NumbersUsed) (index : Nat)
      {subroutine : SubroutineDeclaration},
      subroutines[index]? = some subroutine →
      ∃ usedBefore,
        (codeOfList className classTable subroutines used)[index]? =
          some (subroutine.code className classTable usedBefore) := by
  induction subroutines with
  | nil =>
      intro used index subroutine found
      cases found
  | cons first others inductionHypothesis =>
      intro used index subroutine found
      cases index with
      | zero =>
          obtain rfl := Option.some.inj found
          exact ⟨used, rfl⟩
      | succ index => exact inductionHypothesis _ index found

theorem mem_codeOfList {subroutines : List SubroutineDeclaration}
    {block : List Command} :
    ∀ {used : NumbersUsed},
      block ∈ codeOfList className classTable subroutines used →
      ∃ subroutine ∈ subroutines, ∃ usedBefore,
        block = subroutine.code className classTable usedBefore := by
  induction subroutines with
  | nil =>
      intro used member
      cases member
  | cons first others inductionHypothesis =>
      intro used member
      rcases List.mem_cons.mp member with rfl | later
      · exact ⟨first, List.mem_cons_self, used, rfl⟩
      · obtain ⟨subroutine, declared, usedBefore, same⟩ :=
          inductionHypothesis later
        exact ⟨subroutine, List.mem_cons_of_mem _ declared, usedBefore,
          same⟩

end SubroutineDeclaration

theorem ClassDeclaration.blocks_program (declared : ClassDeclaration)
    (used : NumbersUsed) :
    Command.blocks (declared.program used).commands =
      SubroutineDeclaration.codeOfList declared.name declared.table
        declared.subroutines used :=
  blocks_flatten (SubroutineDeclaration.isBlock_codeOfList _ _ _ _)

/-- Each entry of a program for a subroutine has the code of that subroutine
as its block. -/
theorem ClassDeclaration.getElem?_blocks_program
    (declared : ClassDeclaration) (used : NumbersUsed) {index : Nat}
    {name : String} {table : SymbolTable}
    (entry : (declared.program used).subroutines[index]? =
      some (name, table)) :
    ∃ (subroutine : SubroutineDeclaration) (usedBefore : NumbersUsed),
      declared.subroutines[index]? = some subroutine ∧
        name = qualifiedName declared.name subroutine.name ∧
        table = subroutine.table declared.name ∧
        (Command.blocks (declared.program used).commands)[index]? =
          some (subroutine.code declared.name declared.table
            usedBefore) := by
  rw [program, List.getElem?_map] at entry
  obtain ⟨subroutine, found, same⟩ := Option.map_eq_some_iff.mp entry
  obtain ⟨rfl, rfl⟩ := Prod.mk.inj same
  obtain ⟨usedBefore, code⟩ :=
    SubroutineDeclaration.getElem?_codeOfList declared.name declared.table
      declared.subroutines used index found
  refine ⟨subroutine, usedBefore, found, rfl, rfl, ?_⟩
  rw [declared.blocks_program]
  exact code

theorem ClassDeclaration.length_blocks_program
    (declared : ClassDeclaration) (used : NumbersUsed) :
    (Command.blocks (declared.program used).commands).length =
      (declared.program used).subroutines.length := by
  rw [declared.blocks_program, SubroutineDeclaration.length_codeOfList,
    program, List.length_map]

end JackToVm
