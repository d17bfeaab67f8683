import JackToVm.Proofs.Declarations
import JackToVm.Vm.Cell

/-!
# The numbers of variables

In a table, the variables of a kind are numbered from zero on in the order of
their declaration, whatever was inserted and whatever was refused. The table
of a class holds static and field variables alone, the table of a subroutine
arguments and local variables alone. So in the body of a subroutine every name
stands for a cell that the subroutine has, and no two names stand for the same
cell.
-/

namespace JackToVm

namespace SymbolTable

/-! ## Numbered tables -/

/-- The numbers of the variables of a kind, in the order of declaration. -/
def indices (table : SymbolTable) (kind : VariableKind) : List Nat :=
  (table.entries.toList.filter (·.2.kind = kind)).map (·.2.index)

/-- No name is declared twice, and the variables of a kind have the numbers
below their count, in the order of declaration. -/
structure Numbered (table : SymbolTable) : Prop where
  names_nodup : table.names.Nodup
  indices_eq : ∀ kind, table.indices kind = List.range (table.count kind)

namespace Numbered

variable {table : SymbolTable}

theorem empty : SymbolTable.empty.Numbered where
  names_nodup := List.nodup_nil
  indices_eq := by
    intro kind
    cases kind <;> rfl

/-- A variable with a new name may be put behind the others if it takes the
next number of its kind. -/
theorem push (numbered : table.Numbered) {name : String}
    (fresh : table.lookup? name = none) (type : String)
    (kind : VariableKind) :
    (table.push name ⟨type, kind, table.count kind⟩
      (table.counters.set kind ⟨table.count kind + 1⟩) fresh).Numbered where
  names_nodup := by
    have absent : name ∉ table.names := by
      intro member
      rw [← isSome_lookup?_iff, fresh] at member
      cases member
    have names :
        (table.push name ⟨type, kind, table.count kind⟩
          (table.counters.set kind ⟨table.count kind + 1⟩) fresh).names =
            table.names ++ [name] := by
      simp [SymbolTable.push, SymbolTable.names]
    rw [names, List.nodup_append_comm]
    exact List.nodup_cons.mpr ⟨absent, numbered.names_nodup⟩
  indices_eq := by
    intro asked
    have before := numbered.indices_eq asked
    by_cases same : kind = asked
    · subst asked
      simp only [indices] at before
      simp [indices, count, SymbolTable.push, List.filter_append, before,
        List.range_succ]
    · simp only [indices] at before
      simp [indices, count, SymbolTable.push, List.filter_append, same,
        before]

/-- An insertion keeps the numbers in order, also one that is refused. -/
theorem insert (numbered : table.Numbered) (name type : String)
    (kind : VariableKind) :
    (table.insert name type kind).2.Numbered := by
  unfold SymbolTable.insert
  split
  next => exact numbered
  next fresh =>
    split
    next => exact numbered
    next index counter available =>
      obtain ⟨_, rfl, rfl⟩ := Counter.take?_eq_some_iff.mp available
      exact numbered.push fresh type kind

theorem addAll (numbered : table.Numbered)
    (entries : List VariableDeclaration) :
    (table.addAll entries).Numbered := by
  induction entries generalizing table with
  | nil => exact numbered
  | cons first others inductionHypothesis =>
      have later := numbered.insert first.name first.type.word first.kind
      exact inductionHypothesis later

end Numbered

/-! ## What is found in a numbered table -/

theorem mem_entries_of_lookup? {table : SymbolTable} {name : String}
    {found : Variable} (present : table.lookup? name = some found) :
    (name, found) ∈ table.entries.toList := by
  rw [lookup?_eq_find?] at present
  obtain ⟨entry, search, rfl⟩ := Option.map_eq_some_iff.mp present
  have member := Array.mem_of_find?_eq_some search
  have selected : (entry.1 == name) = true := by
    have accepted := Array.find?_some search
    exact accepted
  have same : entry.1 = name := eq_of_beq selected
  subst same
  exact Array.mem_toList_iff.mpr member

namespace Numbered

variable {table : SymbolTable} {name first second : String}
variable {found foundFirst foundSecond : Variable}

theorem index_lt_count (numbered : table.Numbered)
    (present : table.lookup? name = some found) :
    found.index < table.count found.kind := by
  have entry := mem_entries_of_lookup? present
  have member : found.index ∈ table.indices found.kind := by
    refine List.mem_map.mpr ⟨(name, found), ?_, rfl⟩
    exact List.mem_filter.mpr ⟨entry, by simp⟩
  rw [numbered.indices_eq] at member
  exact List.mem_range.mp member

/-- Two names of one table never stand for the same cell. -/
theorem cell_ne (numbered : table.Numbered)
    (presentFirst : table.lookup? first = some foundFirst)
    (presentSecond : table.lookup? second = some foundSecond)
    (different : first ≠ second) : foundFirst.cell ≠ foundSecond.cell := by
  intro same
  obtain ⟨sameSegment, sameIndex⟩ := Prod.mk.inj same
  have sameKind := VariableKind.segment_injective sameSegment
  have distinct : (table.indices foundSecond.kind).Nodup := by
    rw [numbered.indices_eq]
    exact List.nodup_range
  have memberFirst :
      (first, foundFirst) ∈
        table.entries.toList.filter (·.2.kind = foundSecond.kind) :=
    List.mem_filter.mpr
      ⟨mem_entries_of_lookup? presentFirst, by simp [sameKind]⟩
  have memberSecond :
      (second, foundSecond) ∈
        table.entries.toList.filter (·.2.kind = foundSecond.kind) :=
    List.mem_filter.mpr
      ⟨mem_entries_of_lookup? presentSecond, by simp⟩
  have equal :=
    List.inj_on_of_nodup_map distinct memberFirst memberSecond sameIndex
  exact different (congrArg Prod.fst equal)

end Numbered

/-! ## How many variables there are -/

theorem count_addAll {table : SymbolTable}
    {entries : List VariableDeclaration} (takes : table.TakesAll entries)
    (kind : VariableKind) :
    (table.addAll entries).count kind =
      table.count kind + entries.countP (·.kind = kind) := by
  induction entries generalizing table with
  | nil => rfl
  | cons first others inductionHypothesis =>
      have later := inductionHypothesis takes.2
      rw [count_add takes.1] at later
      rw [List.countP_cons]
      simp only [decide_eq_true_eq]
      have folded :
          (table.addAll (first :: others)).count kind =
            ((table.add first).addAll others).count kind := rfl
      omega

theorem count_addAll_empty {entries : List VariableDeclaration}
    (takes : SymbolTable.empty.TakesAll entries) (kind : VariableKind) :
    (SymbolTable.empty.addAll entries).count kind =
      entries.countP (·.kind = kind) := by
  have none : SymbolTable.empty.count kind = 0 := by
    cases kind <;> rfl
  rw [count_addAll takes, none, Nat.zero_add]

end SymbolTable

/-! ## Scopes -/

namespace Scope

/-- Both tables are numbered, the one of the class for static and field
variables, the one of the subroutine for arguments and local variables. -/
structure Ordered (scope : Scope) : Prop where
  classTable : scope.classTable.Numbered
  subroutineTable : scope.subroutineTable.Numbered
  no_arguments : scope.classTable.count .argument = 0
  no_locals : scope.classTable.count .local = 0
  no_statics : scope.subroutineTable.count .static = 0
  no_fields : scope.subroutineTable.count .field = 0

namespace Ordered

variable {scope : Scope} {name first second : String}
variable {found foundFirst foundSecond : Variable}

theorem has_of_lookup?_subroutine (ordered : scope.Ordered)
    (present : scope.subroutineTable.lookup? name = some found) :
    scope.Has found.kind.segment found.index ∧
      (found.kind = .argument ∨ found.kind = .local) := by
  have bound := ordered.subroutineTable.index_lt_count present
  cases kind : found.kind with
  | static =>
      rw [kind, ordered.no_statics] at bound
      exact absurd bound (Nat.not_lt_zero _)
  | field =>
      rw [kind, ordered.no_fields] at bound
      exact absurd bound (Nat.not_lt_zero _)
  | argument =>
      rw [kind] at bound
      exact ⟨bound, Or.inl rfl⟩
  | «local» =>
      rw [kind] at bound
      exact ⟨bound, Or.inr rfl⟩

theorem has_of_lookup?_class (ordered : scope.Ordered)
    (present : scope.classTable.lookup? name = some found) :
    scope.Has found.kind.segment found.index ∧
      (found.kind = .static ∨ found.kind = .field) := by
  have bound := ordered.classTable.index_lt_count present
  cases kind : found.kind with
  | static =>
      rw [kind] at bound
      exact ⟨bound, Or.inl rfl⟩
  | field =>
      rw [kind] at bound
      exact ⟨bound, Or.inr rfl⟩
  | argument =>
      rw [kind, ordered.no_arguments] at bound
      exact absurd bound (Nat.not_lt_zero _)
  | «local» =>
      rw [kind, ordered.no_locals] at bound
      exact absurd bound (Nat.not_lt_zero _)

/-- A name stands for a cell that the subroutine has. -/
theorem has_of_resolve? (ordered : scope.Ordered)
    (resolved : scope.resolve? name = some found) :
    scope.Has found.kind.segment found.index := by
  rcases Option.or_eq_some_iff.mp resolved with inner | ⟨_, outer⟩
  · exact (ordered.has_of_lookup?_subroutine inner).1
  · exact (ordered.has_of_lookup?_class outer).1

/-- A variable of the subroutine and one of the class lie in different
segments. -/
theorem cell_ne_of_tables (ordered : scope.Ordered)
    (inner : scope.subroutineTable.lookup? first = some foundFirst)
    (outer : scope.classTable.lookup? second = some foundSecond) :
    foundFirst.cell ≠ foundSecond.cell := by
  intro same
  have sameKind :=
    VariableKind.segment_injective (Prod.mk.inj same).1
  rcases (ordered.has_of_lookup?_subroutine inner).2 with isKind | isKind
  · rcases (ordered.has_of_lookup?_class outer).2 with other | other
    · simp [isKind, other] at sameKind
    · simp [isKind, other] at sameKind
  · rcases (ordered.has_of_lookup?_class outer).2 with other | other
    · simp [isKind, other] at sameKind
    · simp [isKind, other] at sameKind

/-- Two names never stand for the same cell. -/
theorem cell_ne (ordered : scope.Ordered)
    (resolvedFirst : scope.resolve? first = some foundFirst)
    (resolvedSecond : scope.resolve? second = some foundSecond)
    (different : first ≠ second) : foundFirst.cell ≠ foundSecond.cell := by
  rcases Option.or_eq_some_iff.mp resolvedFirst with inner | ⟨_, outer⟩
  · rcases Option.or_eq_some_iff.mp resolvedSecond with
      innerSecond | ⟨_, outerSecond⟩
    · exact ordered.subroutineTable.cell_ne inner innerSecond different
    · exact ordered.cell_ne_of_tables inner outerSecond
  · rcases Option.or_eq_some_iff.mp resolvedSecond with
      innerSecond | ⟨_, outerSecond⟩
    · exact (ordered.cell_ne_of_tables innerSecond outer).symm
    · exact ordered.classTable.cell_ne outer outerSecond different

end Ordered

end Scope

namespace ClassDeclaration.Admissible

variable {declared : ClassDeclaration}
variable {subroutine : SubroutineDeclaration}

/-- The table of a class has as many variables of a kind as the class declares
names. -/
theorem count_table (admissible : declared.Admissible)
    (kind : VariableKind) :
    declared.table.count kind =
      match kind with
      | .static => (declared.namesOf .static).length
      | .field => (declared.namesOf .field).length
      | .argument | .local => 0 := by
  have counted :=
    SymbolTable.count_addAll_empty admissible.takesAll_entries kind
  exact counted.trans (declared.countP_entries kind)

/-- The table of a subroutine has as many variables of a kind as the
subroutine declares names. -/
theorem count_subroutineTable (admissible : declared.Admissible)
    (member : subroutine ∈ declared.subroutines) (kind : VariableKind) :
    (subroutine.table declared.name).count kind =
      match kind with
      | .argument => subroutine.argumentNames.length
      | .local => subroutine.localNames.length
      | .static | .field => 0 := by
  have rules := admissible.subroutines subroutine member
  have takes := (subroutine.takesAll_entries_iff declared.name).mpr
    ⟨rules.names_nodup, rules.arguments_le, rules.locals_le⟩
  have counted := SymbolTable.count_addAll_empty takes kind
  exact counted.trans (subroutine.countP_entries declared.name kind)

/-- The scope of a subroutine of an admissible class is in order. -/
theorem scope_ordered (admissible : declared.Admissible)
    (member : subroutine ∈ declared.subroutines) :
    (subroutine.scope declared.name declared.table).Ordered where
  classTable := SymbolTable.Numbered.empty.addAll _
  subroutineTable := SymbolTable.Numbered.empty.addAll _
  no_arguments := admissible.count_table .argument
  no_locals := admissible.count_table .local
  no_statics := admissible.count_subroutineTable member .static
  no_fields := admissible.count_subroutineTable member .field

end ClassDeclaration.Admissible

end JackToVm
