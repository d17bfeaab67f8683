import JackToVm.Proofs.Blocks
import JackToVm.Vm.Relabeling

/-!
# Code with other label numbers

The numbers that are used up before a class decide only the numbers of its
labels. So the program of a class behind other counters is the same program
with all labels shifted by the distance of the counters.
-/

namespace JackToVm

/-! ## Labels that are shifted -/

/-- The labels of every number that is not used up yet are renamed to those of
the number that is as far behind the other ones. -/
def Shifts (rename : String → String) (used other : NumbersUsed) : Prop :=
  ∀ (kind : LabelKind) (number : Nat),
    rename (kind.pair (used kind + number)).start =
        (kind.pair (other kind + number)).start ∧
      rename (kind.pair (used kind + number)).finish =
        (kind.pair (other kind + number)).finish

namespace Shifts

variable {rename : String → String} {used other : NumbersUsed}

theorem add (shifts : Shifts rename used other) (more : NumbersUsed) :
    Shifts rename (fun kind => used kind + more kind)
      (fun kind => other kind + more kind) := by
  intro kind number
  simp only [Nat.add_assoc]
  exact shifts kind (more kind + number)

theorem next (shifts : Shifts rename used other) (kind : LabelKind) :
    Shifts rename (used.next kind) (other.next kind) :=
  shifts.add (.one kind)

theorem behind (shifts : Shifts rename used other)
    (statements : Statements) :
    Shifts rename (used.behind statements) (other.behind statements) :=
  shifts.add fun kind => statements.count kind

theorem start (shifts : Shifts rename used other) (kind : LabelKind) :
    rename (kind.pair (used kind)).start =
      (kind.pair (other kind)).start :=
  (shifts kind 0).1

theorem finish (shifts : Shifts rename used other) (kind : LabelKind) :
    rename (kind.pair (used kind)).finish =
      (kind.pair (other kind)).finish :=
  (shifts kind 0).2

end Shifts

theorem LabelKind.ofName?_eq_some_iff {name : String} {kind : LabelKind} :
    ofName? name = some kind ↔ name ∈ kind.names := by
  have members : ∀ other : LabelKind,
      (decide (name = other.startName) || decide (name = other.endName)) =
        true ↔ name ∈ other.names := by
    intro other
    simp [names]
  constructor
  · intro found
    have selected := List.find?_some found
    exact (members kind).mp selected
  · intro member
    cases found : ofName? name with
    | some other =>
        have selected := List.find?_some found
        rw [names_disjoint ((members other).mp selected) member]
    | none =>
        have refused := List.find?_eq_none.mp found kind
          (by cases kind <;> decide)
        exact absurd ((members kind).mpr member) refused

/-- A label that is shifted keeps its name, and its number moves by the
distance of the counters. -/
theorem LabelCounters.shift_label (first second : LabelCounters)
    {kind : LabelKind} {name : String} (member : name ∈ kind.names)
    (number : Nat) :
    first.shift second (name ++ toString number) =
      name ++ toString (number + second.used kind - first.used kind) := by
  have letters : (name ++ toString number).toList =
      name.toList ++ Nat.toDigits 10 number := by
    simp [String.toList_append]
  have front : (name.toList ++ Nat.toDigits 10 number).takeWhile
      (!·.isDigit) = name.toList :=
    takeWhile_append_toDigits (LabelKind.noDigit_names member) number
  simp only [shift, letters, front, String.ofList_toList, List.drop_left,
    Nat.ofDigitChars_ten_toDigits, LabelKind.ofName?_eq_some_iff.mpr member]

theorem LabelCounters.shifts (first second : LabelCounters) :
    Shifts (first.shift second) first.used second.used := by
  intro kind number
  have moved : first.used kind + number + second.used kind -
      first.used kind = second.used kind + number := by
    omega
  have start := first.shift_label second
    (List.mem_cons_self : kind.startName ∈ kind.names)
    (first.used kind + number)
  have finish := first.shift_label second
    (List.mem_cons_of_mem _ List.mem_cons_self :
      kind.endName ∈ kind.names)
    (first.used kind + number)
  rw [moved] at start finish
  exact ⟨start, finish⟩

/-! ## Code -/

namespace Command

theorem map_relabel_of_movesWords {commands : List Command}
    (moves : commands.all movesWords) (rename : String → String) :
    commands.map (·.relabel rename) = commands := by
  refine (List.map_congr_left ?_).trans (List.map_id commands)
  intro command member
  have movesOne := List.all_eq_true.mp moves command member
  cases command <;> first
    | rfl
    | cases movesOne

end Command

section Code

variable {rename : String → String} (scope : Scope)

theorem Expression.map_relabel_code (whole : Expression) :
    (whole.code scope).map (·.relabel rename) = whole.code scope :=
  Command.map_relabel_of_movesWords (whole.code_movesWords scope) rename

mutual

theorem Statement.map_relabel_code :
    ∀ (one : Statement) {used other : NumbersUsed},
      Shifts rename used other →
        (one.code scope used).map (·.relabel rename) = one.code scope other
  | .letVariable target value, _, _, _ => by
      simp only [Statement.code, List.map_append, value.map_relabel_code,
        Command.map_relabel_of_movesWords (scope.write_movesWords target)]
  | .letElement array index value, _, _, _ => by
      simp only [Statement.code, List.map_append, List.map_cons,
        index.map_relabel_code, value.map_relabel_code,
        Command.map_relabel_of_movesWords (scope.read_movesWords array)]
      rfl
  | .ifThen condition body, _, _, shifts => by
      simp only [Statement.code, List.map_append, List.map_cons,
        List.map_nil, Command.relabel_operation,
        Command.relabel_goto, Command.relabel_ifGoto,
        Command.relabel_label, condition.map_relabel_code,
        body.map_relabel_code (shifts.next .if), shifts.start,
        shifts.finish]
  | .ifElse condition body otherwise, _, _, shifts => by
      simp only [Statement.code, List.map_append, List.map_cons,
        List.map_nil, Command.relabel_operation,
        Command.relabel_goto, Command.relabel_ifGoto,
        Command.relabel_label, condition.map_relabel_code,
        body.map_relabel_code (shifts.next .if),
        otherwise.map_relabel_code ((shifts.next .if).behind body),
        shifts.start, shifts.finish]
  | .whileLoop condition body, _, _, shifts => by
      simp only [Statement.code, List.map_append, List.map_cons,
        List.map_nil, Command.relabel_operation,
        Command.relabel_goto, Command.relabel_ifGoto,
        Command.relabel_label, condition.map_relabel_code,
        body.map_relabel_code (shifts.next .while), shifts.start,
        shifts.finish]
  | .doCall target, _, _, _ => by
      simp only [Statement.code, List.map_append,
        Command.map_relabel_of_movesWords (target.code_movesWords scope)]
      rfl
  | .returnNothing, _, _, _ => rfl
  | .returnValue value, _, _, _ => by
      simp only [Statement.code, List.map_append, value.map_relabel_code]
      rfl

/-- Statements behind other numbers have the same code with other labels. -/
theorem Statements.map_relabel_code :
    ∀ (body : Statements) {used other : NumbersUsed},
      Shifts rename used other →
        (body.code scope used).map (·.relabel rename) =
          body.code scope other
  | .nil, _, _, _ => rfl
  | .cons first others, _, _, shifts => by
      simp only [Statements.code, List.map_append,
        first.map_relabel_code shifts,
        others.map_relabel_code (shifts.add fun kind => first.count kind)]

end

end Code

/-! ## Programs -/

namespace SubroutineDeclaration

variable {rename : String → String} {used other : NumbersUsed}
variable (className : String) (classTable : SymbolTable)

theorem map_relabel_code (subroutine : SubroutineDeclaration)
    (shifts : Shifts rename used other) :
    (subroutine.code className classTable used).map (·.relabel rename) =
      subroutine.code className classTable other := by
  have opening : (subroutine.opening className classTable).map
      (·.relabel rename) = subroutine.opening className classTable := by
    unfold SubroutineDeclaration.opening
    cases subroutine.kind <;> rfl
  rw [code, List.map_append, opening,
    subroutine.body.map_relabel_code _ shifts]
  rfl

theorem map_relabel_codeOfList (subroutines : List SubroutineDeclaration) :
    ∀ {used other : NumbersUsed}, Shifts rename used other →
      (codeOfList className classTable subroutines used).map
          (·.map (·.relabel rename)) =
        codeOfList className classTable subroutines other := by
  induction subroutines with
  | nil => exact fun _ => rfl
  | cons first others inductionHypothesis =>
      intro used other shifts
      simp only [codeOfList, List.map_cons,
        first.map_relabel_code className classTable shifts,
        inductionHypothesis (shifts.behind first.body)]

end SubroutineDeclaration

/-- The program of a class behind other numbers is the same program with other
labels. -/
theorem ClassDeclaration.relabel_program (declared : ClassDeclaration)
    {rename : String → String} {used other : NumbersUsed}
    (shifts : Shifts rename used other) :
    (declared.program used).relabel rename = declared.program other := by
  have blocks := SubroutineDeclaration.map_relabel_codeOfList declared.name
    declared.table declared.subroutines shifts
  simp only [program, Program.relabel, List.map_flatten, blocks]

end JackToVm
