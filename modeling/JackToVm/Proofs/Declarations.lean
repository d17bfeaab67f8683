import JackToVm.Grammar.Admissible
import JackToVm.Grammar.Code
import Mathlib.Data.List.Nodup

/-!
# Declarations and symbol tables

A symbol table takes a variable if its name is new and its kind is not used up.
Variables declared in order are taken exactly if their names are distinct and
there are not too many of one kind, which is what the rules for classes and
subroutines ask for; and a table with the variables of a scope resolves exactly
their names.
-/

namespace JackToVm

namespace SymbolTable

/-! ## One more variable -/

/-- The names that are declared in a table, in order. -/
def names (table : SymbolTable) : List String :=
  table.entries.toList.map Prod.fst

theorem isSome_lookup?_iff {table : SymbolTable} {name : String} :
    (table.lookup? name).isSome ↔ name ∈ table.names := by
  rw [lookup?_eq_find?, Option.isSome_map, Array.find?_isSome]
  constructor
  · intro found
    obtain ⟨entry, member, same⟩ := found
    rw [← eq_of_beq same]
    exact List.mem_map_of_mem (Array.mem_toList_iff.mpr member)
  · intro member
    obtain ⟨entry, declared, rfl⟩ := List.mem_map.mp member
    exact ⟨entry, Array.mem_toList_iff.mp declared, beq_self_eq_true _⟩

/-- Whether a table takes one more variable. -/
def Takes (table : SymbolTable) (declared : VariableDeclaration) : Prop :=
  declared.name ∉ table.names ∧ table.count declared.kind < maxCount

theorem insert_cases (table : SymbolTable)
    (declared : VariableDeclaration) :
    (table.Takes declared ∧
      (table.insert declared.name declared.type.word declared.kind).1 =
        .ok (table.count declared.kind) ∧
      (table.add declared).names = table.names ++ [declared.name] ∧
      ∀ kind, (table.add declared).count kind =
        table.count kind + if declared.kind = kind then 1 else 0) ∨
    (¬ table.Takes declared ∧
      ∃ cause,
        table.insert declared.name declared.type.word declared.kind =
          (.error cause, table)) := by
  unfold Takes add insert
  rw [← isSome_lookup?_iff]
  split
  next existing present =>
    refine Or.inr ⟨?_, _, rfl⟩
    simp [present]
  next present =>
    split
    next exhausted =>
      rw [Counter.take?_eq_none_iff] at exhausted
      refine Or.inr ⟨?_, _, rfl⟩
      intro takes
      exact Nat.not_lt.mpr exhausted takes.2
    next index counter available =>
      obtain ⟨below, rfl, rfl⟩ := Counter.take?_eq_some_iff.mp available
      refine Or.inl ⟨⟨by simp [present], below⟩, rfl, ?_, ?_⟩
      · simp [push, names]
      · intro kind
        by_cases same : declared.kind = kind
        · subst kind
          simp [push, count]
        · simp [push, count, same]

theorem names_add {table : SymbolTable} {declared : VariableDeclaration}
    (takes : table.Takes declared) :
    (table.add declared).names = table.names ++ [declared.name] := by
  obtain taken | refused := table.insert_cases declared
  · exact taken.2.2.1
  · exact absurd takes refused.1

theorem count_add {table : SymbolTable} {declared : VariableDeclaration}
    (takes : table.Takes declared) (kind : VariableKind) :
    (table.add declared).count kind =
      table.count kind + if declared.kind = kind then 1 else 0 := by
  obtain taken | refused := table.insert_cases declared
  · exact taken.2.2.2 kind
  · exact absurd takes refused.1

theorem nodup_names_add {table : SymbolTable}
    {declared : VariableDeclaration} (takes : table.Takes declared)
    (distinct : table.names.Nodup) :
    (table.add declared).names.Nodup := by
  rw [names_add takes, List.nodup_append_comm]
  exact List.nodup_cons.mpr ⟨takes.1, distinct⟩

theorem count_add_le {table : SymbolTable} {declared : VariableDeclaration}
    (takes : table.Takes declared)
    (few : ∀ kind, table.count kind ≤ maxCount) (kind : VariableKind) :
    (table.add declared).count kind ≤ maxCount := by
  have below := few kind
  rw [count_add takes]
  by_cases same : declared.kind = kind
  · subst kind
    have room := takes.2
    simp only [if_true]
    omega
  · simpa [same] using below

/-- A variable that a table takes counts in the table instead of counting
before the other ones. -/
theorem count_add_add_countP {table : SymbolTable}
    {declared : VariableDeclaration} (takes : table.Takes declared)
    (others : List VariableDeclaration) (kind : VariableKind) :
    (table.add declared).count kind + others.countP (·.kind = kind) =
      table.count kind + (declared :: others).countP (·.kind = kind) := by
  rw [count_add takes, List.countP_cons]
  simp only [decide_eq_true_eq]
  omega

/-! ## Several variables -/

/-- Whether a table takes several variables, one after the other. -/
def TakesAll (table : SymbolTable) : List VariableDeclaration → Prop
  | [] => True
  | first :: others => table.Takes first ∧ (table.add first).TakesAll others

theorem addAll_append (table : SymbolTable)
    (first second : List VariableDeclaration) :
    table.addAll (first ++ second) = (table.addAll first).addAll second :=
  List.foldl_append

theorem takesAll_append_iff {table : SymbolTable}
    {first second : List VariableDeclaration} :
    table.TakesAll (first ++ second) ↔
      table.TakesAll first ∧ (table.addAll first).TakesAll second := by
  induction first generalizing table with
  | nil => simp [TakesAll, addAll]
  | cons declared others inductionHypothesis =>
      simp only [List.cons_append, TakesAll, inductionHypothesis,
        and_assoc]
      rfl

theorem names_addAll {table : SymbolTable}
    {entries : List VariableDeclaration}
    (takes : table.TakesAll entries) :
    (table.addAll entries).names =
      table.names ++ entries.map VariableDeclaration.name := by
  induction entries generalizing table with
  | nil => simp [addAll]
  | cons first others inductionHypothesis =>
      have later := inductionHypothesis takes.2
      rw [names_add takes.1] at later
      simpa [addAll] using later

/-- The names must be new and distinct, and the number of each kind must stay
within the limit. -/
theorem takesAll_iff {table : SymbolTable}
    {entries : List VariableDeclaration} (distinct : table.names.Nodup)
    (few : ∀ kind, table.count kind ≤ maxCount) :
    table.TakesAll entries ↔
      (table.names ++ entries.map VariableDeclaration.name).Nodup ∧
        ∀ kind, table.count kind +
          entries.countP (·.kind = kind) ≤ maxCount := by
  induction entries generalizing table with
  | nil => simp [TakesAll, distinct, few]
  | cons first others inductionHypothesis =>
      have regrouped :
          table.names ++ (first :: others).map VariableDeclaration.name =
            table.names ++ [first.name] ++
              others.map VariableDeclaration.name := by
        simp
      rw [regrouped]
      constructor
      · rintro ⟨takesFirst, takesOthers⟩
        rw [inductionHypothesis (nodup_names_add takesFirst distinct)
          (count_add_le takesFirst few), names_add takesFirst] at takesOthers
        refine ⟨takesOthers.1, fun kind => ?_⟩
        rw [← count_add_add_countP takesFirst]
        exact takesOthers.2 kind
      · rintro ⟨nodup, bounds⟩
        have distinctFirst := (List.nodup_append.mp nodup).1
        have takesFirst : table.Takes first := by
          rw [List.nodup_append_comm] at distinctFirst
          have bound := bounds first.kind
          rw [List.countP_cons] at bound
          simp only [decide_true, if_true] at bound
          exact ⟨(List.nodup_cons.mp distinctFirst).1, by omega⟩
        refine ⟨takesFirst, (inductionHypothesis
          (nodup_names_add takesFirst distinct)
          (count_add_le takesFirst few)).mpr ?_⟩
        rw [names_add takesFirst]
        refine ⟨nodup, fun kind => ?_⟩
        rw [count_add_add_countP takesFirst]
        exact bounds kind

theorem takesAll_empty_iff {entries : List VariableDeclaration} :
    SymbolTable.empty.TakesAll entries ↔
      (entries.map VariableDeclaration.name).Nodup ∧
        ∀ kind, entries.countP (·.kind = kind) ≤ maxCount := by
  have countEmpty : ∀ kind, SymbolTable.empty.count kind = 0 := by
    intro kind
    cases kind <;> rfl
  have namesEmpty : SymbolTable.empty.names = [] := rfl
  rw [takesAll_iff (by simp [namesEmpty]) fun kind => by simp [countEmpty]]
  simp [countEmpty, namesEmpty]

theorem names_addAll_empty {entries : List VariableDeclaration}
    (takes : SymbolTable.empty.TakesAll entries) :
    (SymbolTable.empty.addAll entries).names =
      entries.map VariableDeclaration.name := by
  rw [names_addAll takes]
  rfl

end SymbolTable

/-! ## The variables of a subroutine -/

theorem VariableList.names_entries (list : VariableList)
    (kind : VariableKind) :
    (list.entries kind).map VariableDeclaration.name = list.names := by
  simp [entries, Function.comp_def]

theorem VariableList.countP_entries (list : VariableList)
    (kind asked : VariableKind) :
    (list.entries kind).countP (·.kind = asked) =
      if kind = asked then list.names.length else 0 := by
  by_cases same : kind = asked
  · simp [entries, same]
  · simp [entries, same]

namespace SubroutineDeclaration

variable (subroutine : SubroutineDeclaration) (className : String)

theorem names_entries :
    (subroutine.entries className).map VariableDeclaration.name =
      subroutine.argumentNames ++ subroutine.localNames := by
  have implicitNames :
      (subroutine.kind.implicitVariables className).map
          VariableDeclaration.name =
        if subroutine.kind = .method then [Keyword.this.word] else [] := by
    cases subroutine.kind <;> rfl
  have parameterNames :
      (subroutine.parameters.map Parameter.variable).map
          VariableDeclaration.name =
        subroutine.parameters.map Parameter.name := by
    simp [Parameter.variable, Function.comp_def]
  have localNames :
      (subroutine.declarations.flatMap (·.entries .local)).map
          VariableDeclaration.name =
        subroutine.localNames := by
    simp [SubroutineDeclaration.localNames, List.map_flatMap,
      VariableList.names_entries]
  rw [entries, List.map_append, List.map_append, implicitNames,
    parameterNames, localNames]
  rfl

/-- The arguments and the local variables of a subroutine are counted apart,
and there are no variables of other kinds. -/
theorem countP_entries (asked : VariableKind) :
    (subroutine.entries className).countP (·.kind = asked) =
      match asked with
      | .argument => subroutine.argumentNames.length
      | .local => subroutine.localNames.length
      | .static | .field => 0 := by
  have implicitCount :
      (subroutine.kind.implicitVariables className).countP
          (·.kind = asked) =
        if asked = .argument then
          (if subroutine.kind = .method then [Keyword.this.word]
            else []).length
        else 0 := by
    cases subroutine.kind <;> cases asked <;> rfl
  have parameterCount :
      (subroutine.parameters.map Parameter.variable).countP
          (·.kind = asked) =
        if asked = .argument then
          (subroutine.parameters.map Parameter.name).length
        else 0 := by
    cases asked <;> simp [Parameter.variable, Function.comp_def]
  have localCount : ∀ lists : List VariableList,
      (lists.flatMap (·.entries .local)).countP (·.kind = asked) =
        if asked = .local then (lists.flatMap (·.names)).length
        else 0 := by
    intro lists
    induction lists with
    | nil => simp
    | cons first others inductionHypothesis =>
        rw [List.flatMap_cons, List.countP_append, inductionHypothesis,
          VariableList.countP_entries]
        cases asked <;> simp
  rw [entries, List.countP_append, List.countP_append, implicitCount,
    parameterCount, localCount]
  cases asked <;> simp [argumentNames, localNames]

theorem takesAll_entries_iff :
    SymbolTable.empty.TakesAll (subroutine.entries className) ↔
      (subroutine.argumentNames ++ subroutine.localNames).Nodup ∧
        subroutine.argumentNames.length ≤ maxCount ∧
        subroutine.localNames.length ≤ maxCount := by
  rw [SymbolTable.takesAll_empty_iff, names_entries]
  refine and_congr_right fun _ => ?_
  constructor
  · intro few
    have arguments := few .argument
    have locals := few .local
    rw [countP_entries] at arguments locals
    exact ⟨arguments, locals⟩
  · intro few kind
    rw [countP_entries]
    cases kind with
    | argument => exact few.1
    | «local» => exact few.2
    | static => exact Nat.zero_le _
    | field => exact Nat.zero_le _

theorem scope_declares {classTable : SymbolTable}
    (takes : SymbolTable.empty.TakesAll (subroutine.entries className)) :
    (subroutine.scope className classTable).Declares
      (subroutine.argumentNames ++ subroutine.localNames ++
        classTable.names) := by
  intro name
  have tableNames :
      (subroutine.table className).names =
        subroutine.argumentNames ++ subroutine.localNames := by
    rw [table, SymbolTable.names_addAll_empty takes, names_entries]
  rw [scope, Scope.resolve?, Option.isSome_or, Bool.or_eq_true,
    SymbolTable.isSome_lookup?_iff, SymbolTable.isSome_lookup?_iff,
    tableNames, ← List.mem_append]

end SubroutineDeclaration

/-! ## The variables of a class -/

namespace ClassDeclaration

variable (declared : ClassDeclaration)

theorem names_entries :
    (declared.declarations.flatMap ClassVariableList.entries).map
        VariableDeclaration.name =
      declared.variableNames := by
  simp [variableNames, List.map_flatMap, ClassVariableList.entries,
    VariableList.names_entries]

/-- Variables of the kinds that a class declares are counted by their own
names, and there are no others. -/
theorem countP_entries (asked : VariableKind) :
    (declared.declarations.flatMap ClassVariableList.entries).countP
        (·.kind = asked) =
      match asked with
      | .static => (declared.namesOf .static).length
      | .field => (declared.namesOf .field).length
      | .argument | .local => 0 := by
  rw [namesOf, namesOf]
  induction declared.declarations with
  | nil => cases asked <;> rfl
  | cons first others inductionHypothesis =>
      rw [List.flatMap_cons, List.countP_append, inductionHypothesis,
        ClassVariableList.entries, VariableList.countP_entries]
      cases kind : first.kind <;> cases asked <;>
        simp [kind, ClassVariableKind.kind]

theorem takesAll_entries_iff :
    SymbolTable.empty.TakesAll
        (declared.declarations.flatMap ClassVariableList.entries) ↔
      declared.variableNames.Nodup ∧
        ∀ kind, (declared.namesOf kind).length ≤ maxCount := by
  rw [SymbolTable.takesAll_empty_iff, names_entries]
  refine and_congr_right fun _ => ?_
  constructor
  · intro few kind
    have bound := few kind.kind
    rw [countP_entries] at bound
    cases kind <;> exact bound
  · intro few kind
    rw [countP_entries]
    cases kind with
    | static => exact few .static
    | field => exact few .field
    | argument => exact Nat.zero_le _
    | «local» => exact Nat.zero_le _

theorem names_table
    (takes : SymbolTable.empty.TakesAll
      (declared.declarations.flatMap ClassVariableList.entries)) :
    declared.table.names = declared.variableNames := by
  rw [table, SymbolTable.names_addAll_empty takes, names_entries]

variable {declared}

theorem Admissible.takesAll_entries (admissible : declared.Admissible) :
    SymbolTable.empty.TakesAll
      (declared.declarations.flatMap ClassVariableList.entries) :=
  declared.takesAll_entries_iff.mpr
    ⟨admissible.names_nodup, admissible.variables_le⟩

/-- The scope of a subroutine of an admissible class resolves the names that
are declared in the subroutine and in the class. -/
theorem Admissible.scope_declares (admissible : declared.Admissible)
    {subroutine : SubroutineDeclaration}
    (member : subroutine ∈ declared.subroutines) :
    (subroutine.scope declared.name declared.table).Declares
      (subroutine.argumentNames ++ subroutine.localNames ++
        declared.variableNames) := by
  have rules := admissible.subroutines subroutine member
  have takes := (subroutine.takesAll_entries_iff declared.name).mpr
    ⟨rules.names_nodup, rules.arguments_le, rules.locals_le⟩
  rw [← declared.names_table admissible.takesAll_entries]
  exact subroutine.scope_declares declared.name takes

end ClassDeclaration

end JackToVm
