import JackToVm.Proofs.Numbering
import JackToVm.SymbolTable.Insertion

/-!
# What a symbol table holds

Behind any row of insertions, with whatever names, types and kinds and however
many of them are refused, a table holds the variables that it took: each under
its name, numbered per kind in the order of insertion. The answer to one more
insertion depends on the name and on the count of the kind alone.
-/

namespace JackToVm.SymbolTable

variable {table : SymbolTable} {asked : Insertion}

/-! ## One insertion -/

/-- All that an insertion can do: it finds the name present, or the numbers of
the kind used up, or it puts the variable behind the others. -/
theorem insert_outcomes (table : SymbolTable) (asked : Insertion) :
    (∃ stored, table.lookup? asked.name = some stored ∧
      table.insert asked.name asked.type asked.kind =
        (.error (.redeclared asked.name stored.kind), table)) ∨
    (table.lookup? asked.name = none ∧
      Counter.limit ≤ table.count asked.kind ∧
      table.insert asked.name asked.type asked.kind =
        (.error (.limit (.variableCount asked.kind)), table)) ∨
    (∃ fresh : table.lookup? asked.name = none,
      table.count asked.kind < Counter.limit ∧
      table.insert asked.name asked.type asked.kind =
        (.ok (table.count asked.kind),
          table.push asked.name
            ⟨asked.type, asked.kind, table.count asked.kind⟩
            (table.counters.set asked.kind ⟨table.count asked.kind + 1⟩)
            fresh)) := by
  unfold insert
  split
  next stored present => exact Or.inl ⟨stored, present, rfl⟩
  next fresh =>
    split
    next exhausted =>
      rw [Counter.take?_eq_none_iff] at exhausted
      exact Or.inr (Or.inl ⟨fresh, exhausted, rfl⟩)
    next index counter available =>
      obtain ⟨below, rfl, rfl⟩ := Counter.take?_eq_some_iff.mp available
      exact Or.inr (Or.inr ⟨fresh, below, rfl⟩)

theorem behind_eq_of_refused {cause : CompileError}
    (refused : table.answer asked = .error cause) :
    table.behind asked = table := by
  unfold answer at refused
  unfold behind
  obtain ⟨stored, _, inserted⟩ | ⟨_, _, inserted⟩ | ⟨_, _, inserted⟩ :=
    table.insert_outcomes asked
  · rw [inserted]
  · rw [inserted]
  · rw [inserted] at refused
    cases refused

/-- The entries behind an insertion are those before it, and the variable if
the table took it. -/
theorem entries_behind (table : SymbolTable) (asked : Insertion) :
    (table.behind asked).entries.toList =
      table.entries.toList ++ taken [(asked, table.answer asked)] := by
  unfold behind answer
  obtain ⟨stored, _, inserted⟩ | ⟨_, _, inserted⟩ | ⟨fresh, _, inserted⟩ :=
    table.insert_outcomes asked
  · rw [inserted]
    exact (List.append_nil _).symm
  · rw [inserted]
    exact (List.append_nil _).symm
  · rw [inserted]
    exact Array.toList_push

theorem count_behind_le
    (few : ∀ kind, table.count kind ≤ Counter.limit) (kind : VariableKind) :
    (table.behind asked).count kind ≤ Counter.limit := by
  unfold behind
  obtain ⟨stored, _, inserted⟩ | ⟨_, _, inserted⟩ | ⟨fresh, below, inserted⟩ :=
    table.insert_outcomes asked
  · rw [inserted]
    exact few kind
  · rw [inserted]
    exact few kind
  · rw [inserted]
    have before := few kind
    by_cases same : asked.kind = kind
    · subst kind
      simpa [count, push] using Nat.succ_le_of_lt below
    · simpa [count, push, same] using before

/-! ## Any number of insertions -/

theorem entries_behindAll (table : SymbolTable)
    (insertions : List Insertion) :
    (table.behindAll insertions).entries.toList =
      table.entries.toList ++ taken (table.answers insertions) := by
  induction insertions generalizing table with
  | nil => exact (List.append_nil _).symm
  | cons asked others inductionHypothesis =>
      have step := table.entries_behind asked
      have later := inductionHypothesis (table.behind asked)
      have split :
          taken (table.answers (asked :: others)) =
            taken [(asked, table.answer asked)] ++
              taken ((table.behind asked).answers others) :=
        List.filterMap_append (l := [(asked, table.answer asked)])
      rw [split, ← List.append_assoc, ← step]
      exact later

theorem Numbered.behindAll (numbered : table.Numbered)
    (insertions : List Insertion) :
    (table.behindAll insertions).Numbered := by
  induction insertions generalizing table with
  | nil => exact numbered
  | cons asked others inductionHypothesis =>
      exact inductionHypothesis
        (numbered.insert asked.name asked.type asked.kind)

theorem count_behindAll_le
    (few : ∀ kind, table.count kind ≤ Counter.limit)
    (insertions : List Insertion) (kind : VariableKind) :
    (table.behindAll insertions).count kind ≤ Counter.limit := by
  induction insertions generalizing table with
  | nil => exact few kind
  | cons asked others inductionHypothesis =>
      exact inductionHypothesis (count_behind_le few)

/-! ## What a numbered table holds -/

/-- Where no name stands twice, a search finds all there is under a name. -/
theorem toList_find?_eq_filter {entries : List (String × Variable)}
    (distinct : (entries.map Prod.fst).Nodup) (name : String) :
    (entries.find? (·.1 == name)).toList =
      entries.filter (·.1 = name) := by
  induction entries with
  | nil => rfl
  | cons first others inductionHypothesis =>
      rw [List.map_cons, List.nodup_cons] at distinct
      by_cases same : first.1 = name
      · have noOther : others.filter (·.1 = name) = [] := by
          rw [List.filter_eq_nil_iff]
          intro other member found
          have sameName : other.1 = first.1 :=
            (of_decide_eq_true found).trans same.symm
          exact distinct.1 (sameName ▸ List.mem_map_of_mem member)
        simp [same, noOther]
      · simpa [same] using inductionHypothesis distinct.2

theorem Numbered.holds (numbered : table.Numbered)
    (few : ∀ kind, table.count kind ≤ Counter.limit) :
    table.Holds table.entries.toList where
  entries_eq := rfl
  count_eq := by
    intro kind
    have sameLength := congrArg List.length (numbered.indices_eq kind)
    rw [indices, List.length_map, List.length_range] at sameLength
    rw [List.countP_eq_length_filter, sameLength]
  count_le := few
  indices_eq := numbered.indices_eq
  lookup?_eq := by
    intro name
    rw [lookup?_eq_find?, ← toList_find?_eq_filter numbered.names_nodup,
      ← Array.find?_toList, Option.toList_map]

/-- A refused insertion leaves nothing behind that could tell it from one that
never was. -/
theorem same_of_refused {cause : CompileError}
    (refused : table.answer asked = .error cause) :
    (table.behind asked).Same table := by
  rw [behind_eq_of_refused refused]
  exact ⟨fun _ => rfl, fun _ => rfl, rfl, fun _ => rfl, fun _ => rfl⟩

/-- The three outcomes exclude one another, so each answer tells which one it
was. -/
theorem answersTo (few : ∀ kind, table.count kind ≤ Counter.limit)
    (asked : Insertion) : table.AnswersTo asked := by
  have atMost := few asked.kind
  obtain ⟨stored, present, inserted⟩ | ⟨absent, full, inserted⟩ |
      ⟨fresh, below, inserted⟩ := table.insert_outcomes asked
  · have answered : table.answer asked =
        .error (.redeclared asked.name stored.kind) :=
      congrArg Prod.fst inserted
    refine ⟨?_, ?_, ?_, fun _ => same_of_refused⟩
    · intro name kind
      simp [answered, present, eq_comm]
    · simp [answered, present]
    · simp [answered, present]
  · have answered : table.answer asked =
        .error (.limit (.variableCount asked.kind)) :=
      congrArg Prod.fst inserted
    have atLimit := Nat.le_antisymm atMost full
    refine ⟨?_, ?_, ?_, fun _ => same_of_refused⟩
    · simp [answered, absent]
    · intro exceeded
      simp [answered, absent, atLimit, eq_comm]
    · simp [answered, atLimit]
  · have answered : table.answer asked = .ok (table.count asked.kind) :=
      congrArg Prod.fst inserted
    have notAtLimit := Nat.ne_of_lt below
    refine ⟨?_, ?_, ?_, fun _ => same_of_refused⟩
    · simp [answered, fresh]
    · simp [answered, notAtLimit]
    · intro index
      simp [answered, fresh, notAtLimit, eq_comm]

/-- Behind any insertions a table holds what it took of them and nothing else,
and it refuses one more exactly for a name that it holds or for a kind whose
numbers are used up, without changing. -/
theorem holds_behindAll (insertions : List Insertion) :
    let table := empty.behindAll insertions
    table.Holds (taken (empty.answers insertions)) ∧
      ∀ asked, table.AnswersTo asked := by
  intro table
  have numbered : table.Numbered := Numbered.empty.behindAll insertions
  have few : ∀ kind, table.count kind ≤ Counter.limit := by
    apply count_behindAll_le
    intro kind
    cases kind <;> exact Nat.zero_le _
  have entries : table.entries.toList = taken (empty.answers insertions) :=
    empty.entries_behindAll insertions
  constructor
  · rw [← entries]
    exact numbered.holds few
  · exact answersTo few

end JackToVm.SymbolTable
