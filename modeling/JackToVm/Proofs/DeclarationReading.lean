import JackToVm.Compilation.Class
import JackToVm.Proofs.ClassPassage
import JackToVm.Proofs.Declarations

/-!
# Reading declarations of variables

The steps of a pass that declare variables hand a symbol table on from one to
the next. They read exactly the declarations whose variables the table takes,
and the table behind them has these variables at its end.
-/

namespace JackToVm.Pass

open Passage

variable {α γ : Type}
variable {labels : LabelCounters} {rest : List Token}
variable {before behind : PassState} {table result : SymbolTable}

theorem declare_eq_ok_iff {name : String} {type : TypeName}
    {kind : VariableKind} :
    (declare name type.word kind table).run before = .ok result behind ↔
      table.Takes ⟨name, type, kind⟩ ∧
        result = table.add ⟨name, type, kind⟩ ∧ behind = before := by
  unfold declare
  obtain taken | refused := table.insert_cases ⟨name, type, kind⟩
  · obtain ⟨takes, inserted, _⟩ := taken
    have split :
        table.insert name type.word kind =
          (.ok (table.count kind), table.add ⟨name, type, kind⟩) :=
      Prod.ext inserted rfl
    simp only [split, pure_eq_ok_iff, takes, true_and]
  · obtain ⟨refuses, cause, inserted⟩ := refused
    have split :
        table.insert name type.word kind = (.error cause, table) := inserted
    simp only [split, refuses, false_and, iff_false]
    exact throw_ne_ok

/-! ## Repeated declarations -/

/-- Every round of a repetition reads one thing and declares its
variables. -/
structure DeclaresRounds (wanted : Token → Option α)
    (body : α → SymbolTable → Pass SymbolTable) (passageOf : γ → Passage)
    (entriesOf : γ → List VariableDeclaration) : Prop where
  reads : ∀ (one : γ) {table : SymbolTable} {labels : LabelCounters}
    {rest : List Token}, table.TakesAll (entriesOf one) →
    ∃ choice, (passageOf one).tokens.head?.bind wanted = some choice ∧
      Reads (body choice table) labels (passageOf one) rest
        (table.addAll (entriesOf one))
  recognizes : ∀ {choice : α} {table result : SymbolTable}
    {before behind : PassState},
    before.next?.bind wanted = some choice →
    (body choice table).run before = .ok result behind →
    ∃ one, table.TakesAll (entriesOf one) ∧
      result = table.addAll (entriesOf one) ∧
      (passageOf one).Connects before behind

namespace DeclaresRounds

variable {wanted : Token → Option α}
variable {body : α → SymbolTable → Pass SymbolTable}
variable {passageOf : γ → Passage}
variable {entriesOf : γ → List VariableDeclaration}

theorem readsLoop
    (rounds : DeclaresRounds wanted body passageOf entriesOf)
    (ends : rest.head?.bind wanted = none) :
    ∀ (list : List γ) {table : SymbolTable} {labels : LabelCounters},
      table.TakesAll (list.flatMap entriesOf) →
      ReadsLoop wanted body labels (ofList passageOf list) rest table
        (table.addAll (list.flatMap entriesOf))
  | [], _, _, _ => ReadsLoop.stop ends
  | first :: others, table, _, takes => by
      rw [List.flatMap_cons, SymbolTable.takesAll_append_iff] at takes
      rw [List.flatMap_cons, SymbolTable.addAll_append]
      obtain ⟨_, begins, reads⟩ := rounds.reads first takes.1
      exact ReadsLoop.again begins reads
        (rounds.readsLoop ends others takes.2)

theorem recognizesAll
    (rounds : DeclaresRounds wanted body passageOf entriesOf)
    (run : (repeatWhile wanted body table).run before =
      .ok result behind) :
    ∃ list : List γ, table.TakesAll (list.flatMap entriesOf) ∧
      result = table.addAll (list.flatMap entriesOf) ∧
      (ofList passageOf list).Connects before behind := by
  refine of_repeatWhile
    (motive := fun table before result behind =>
      ∃ list : List γ, table.TakesAll (list.flatMap entriesOf) ∧
        result = table.addAll (list.flatMap entriesOf) ∧
        (ofList passageOf list).Connects before behind) ?_ ?_ run
  · intro result state
    exact ⟨[], trivial, rfl, .refl state⟩
  · intro choice initial before value between result behind begins round
      later
    obtain ⟨first, takesFirst, rfl, connectsFirst⟩ :=
      rounds.recognizes begins round
    obtain ⟨others, takesOthers, rfl, connectsOthers⟩ := later
    refine ⟨first :: others, ?_, ?_, connectsFirst.append connectsOthers⟩
    · rw [List.flatMap_cons, SymbolTable.takesAll_append_iff]
      exact ⟨takesFirst, takesOthers⟩
    · rw [List.flatMap_cons, SymbolTable.addAll_append]

end DeclaresRounds

/-! ## Declarations behind commas -/

/-- A step reads one thing and declares its variable. -/
structure DeclaresOne (item : SymbolTable → Pass SymbolTable)
    (passageOf : γ → Passage) (entryOf : γ → VariableDeclaration) :
    Prop where
  eq_ok_iff : ∀ {table result : SymbolTable} {before behind : PassState},
    (item table).run before = .ok result behind ↔
      ∃ one, table.Takes (entryOf one) ∧
        result = table.add (entryOf one) ∧
        (passageOf one).Connects before behind

namespace DeclaresOne

variable {item : SymbolTable → Pass SymbolTable}
variable {passageOf : γ → Passage} {entryOf : γ → VariableDeclaration}

theorem rounds (declares : DeclaresOne item passageOf entryOf) :
    DeclaresRounds (exactly (.symbol .comma))
      (fun _ table => do advance; item table)
      (fun one => (passageOf one).behindComma)
      (fun one => [entryOf one]) where
  reads := by
    intro one table labels rest takes
    refine ⟨(), rfl, Reads.bind (Reads.advance _) ?_⟩
    intro before behind connects _ _
    exact declares.eq_ok_iff.mpr ⟨one, takes.1, rfl, connects⟩
  recognizes := by
    intro _ table result before behind begins run
    obtain ⟨token, next, selected⟩ := Option.bind_eq_some_iff.mp begins
    rw [exactly_eq_some_iff] at selected
    subst token
    obtain ⟨_, _, readComma, readItem⟩ := bind_eq_ok_iff.mp run
    obtain ⟨one, takes, rfl, connects⟩ := declares.eq_ok_iff.mp readItem
    exact ⟨one, ⟨takes, trivial⟩, rfl,
      ((advance_eq_ok_iff next).mp readComma).append connects⟩

theorem reads_commaSeparated (declares : DeclaresOne item passageOf entryOf)
    (first : γ) (others : List γ)
    (takes : table.TakesAll ((first :: others).map entryOf))
    (ends : rest.head?.bind (exactly (.symbol .comma)) = none) :
    Reads (commaSeparated item table) labels
      (passageOf first ++
        ofList (fun one => (passageOf one).behindComma) others) rest
      (table.addAll ((first :: others).map entryOf)) := by
  rw [List.map_eq_flatMap] at takes ⊢
  refine Reads.bind ?_
    (Reads.repeatWhile (declares.rounds.readsLoop ends others takes.2))
  intro before behind connects _ _
  exact declares.eq_ok_iff.mpr ⟨first, takes.1, rfl, connects⟩

theorem recognizes_commaSeparated
    (declares : DeclaresOne item passageOf entryOf)
    (run : (commaSeparated item table).run before = .ok result behind) :
    ∃ (first : γ) (others : List γ),
      table.TakesAll ((first :: others).map entryOf) ∧
      result = table.addAll ((first :: others).map entryOf) ∧
      (passageOf first ++
        ofList (fun one => (passageOf one).behindComma) others).Connects
          before behind := by
  obtain ⟨_, _, readFirst, readOthers⟩ := bind_eq_ok_iff.mp run
  obtain ⟨first, takesFirst, rfl, connectsFirst⟩ :=
    declares.eq_ok_iff.mp readFirst
  obtain ⟨others, takesOthers, rfl, connectsOthers⟩ :=
    declares.rounds.recognizesAll readOthers
  refine ⟨first, others, ?_, ?_, connectsFirst.append connectsOthers⟩
  · rw [List.map_eq_flatMap]
    exact ⟨takesFirst, takesOthers⟩
  · rw [List.map_eq_flatMap]
    rfl

end DeclaresOne

/-! ## Variables and parameters -/

theorem declaresOne_name (type : TypeName) (kind : VariableKind) :
    DeclaresOne
      (fun table => do
        let name ← expectName .variable
        declare name type.word kind table)
      Passage.name (fun name => ⟨name, type, kind⟩) := by
  refine ⟨?_⟩
  intro table result before behind
  simp only [bind_eq_ok_iff, expectName_eq_ok_iff, declare_eq_ok_iff]
  constructor
  · intro run
    obtain ⟨name, _, connects, takes, added, rfl⟩ := run
    exact ⟨name, takes, added, connects⟩
  · intro found
    obtain ⟨name, takes, added, connects⟩ := found
    exact ⟨name, behind, connects, takes, added, rfl⟩

theorem declaresOne_parameter :
    DeclaresOne
      (fun table => do
        let type ← expectType
        let name ← expectName .parameter
        declare name type.word .argument table)
      Parameter.passage Parameter.variable := by
  refine ⟨?_⟩
  intro table result before behind
  simp only [bind_eq_ok_iff, expectType_eq_ok_iff, expectName_eq_ok_iff,
    declare_eq_ok_iff]
  constructor
  · intro run
    obtain ⟨type, _, connectsType, name, _, connectsName, takes, added,
      rfl⟩ := run
    exact ⟨⟨type, name⟩, takes, added, connectsType.append connectsName⟩
  · intro found
    obtain ⟨⟨type, name⟩, takes, added, connects⟩ := found
    obtain ⟨between, connectsType, connectsName⟩ := connects.split
    exact ⟨type, between, connectsType, name, behind, connectsName, takes,
      added, rfl⟩

theorem reads_variableNames (list : VariableList) {kind : VariableKind}
    (takes : table.TakesAll (list.entries kind)) :
    Reads (do let type ← expectType; variableNames type kind table) labels
      list.passage rest (table.addAll (list.entries kind)) := by
  refine Reads.bind (Reads.expectType list.type) ?_
  have regrouped :
      concat [name list.first,
          ofList (fun other => (name other).behindComma) list.others,
          symbol .semicolon] =
        name list.first ++
            ofList (fun other => (name other).behindComma) list.others ++
          (symbol .semicolon ++ empty) := by
    simp only [concat, append_assoc, append_empty]
  rw [regrouped]
  refine Reads.bind
    ((declaresOne_name list.type kind).reads_commaSeparated list.first
      list.others takes rfl) ?_
  exact Reads.bind (Reads.expectSymbol .semicolon) (Reads.pure _)

theorem recognizes_variableNames {kind : VariableKind}
    (run : (do
      let type ← expectType
      variableNames type kind table : Pass SymbolTable).run before =
        .ok result behind) :
    ∃ list : VariableList, table.TakesAll (list.entries kind) ∧
      result = table.addAll (list.entries kind) ∧
      list.passage.Connects before behind := by
  simp only [variableNames, bind_eq_ok_iff, expectType_eq_ok_iff,
    expectSymbol_eq_ok_iff, pure_eq_ok_iff] at run
  obtain ⟨type, _, connectsType, _, _, readNames, _, _, connectsEnd, rfl,
    rfl⟩ := run
  obtain ⟨first, others, takes, rfl, connectsNames⟩ :=
    (declaresOne_name type kind).recognizes_commaSeparated readNames
  refine ⟨⟨type, first, others⟩, takes, rfl, ?_⟩
  have connects := connectsType.append (connectsNames.append connectsEnd)
  rw [append_assoc] at connects
  exact connects

theorem declaresRounds_varDec :
    DeclaresRounds (exactly (.keyword .var)) (fun _ => varDec)
      VariableList.localPassage (·.entries .local) where
  reads := by
    intro list table labels rest takes
    refine ⟨(), rfl, Reads.within .varDec ?_⟩
    exact Reads.bind (Reads.expectKeyword .var)
      (reads_variableNames list takes)
  recognizes := by
    intro _ table result before behind _ run
    obtain ⟨outside, inner, rfl⟩ := within_eq_ok_iff.mp run
    obtain ⟨_, _, readVar, readNames⟩ := bind_eq_ok_iff.mp inner
    have connectsVar := expectKeyword_eq_ok_iff.mp readVar
    obtain ⟨list, takes, added, connects⟩ :=
      recognizes_variableNames readNames
    exact ⟨list, takes, added,
      (connectsVar.append connects).inside .varDec⟩

theorem declaresRounds_classVarDec :
    DeclaresRounds ClassVariableKind.ofToken? classVarDec
      ClassVariableList.passage ClassVariableList.entries where
  reads := by
    intro list table labels rest takes
    have begins :
        list.passage.tokens.head?.bind ClassVariableKind.ofToken? =
          some list.kind :=
      ClassVariableKind.ofToken?_eq_some_iff.mpr rfl
    refine ⟨list.kind, begins, Reads.within .classVarDec ?_⟩
    exact Reads.bind (Reads.advance _)
      (reads_variableNames list.toVariableList takes)
  recognizes := by
    intro kind table result before behind begins run
    obtain ⟨token, next, selected⟩ := Option.bind_eq_some_iff.mp begins
    rw [ClassVariableKind.ofToken?_eq_some_iff] at selected
    subst token
    obtain ⟨outside, inner, rfl⟩ := within_eq_ok_iff.mp run
    obtain ⟨_, _, readKeyword, readNames⟩ := bind_eq_ok_iff.mp inner
    have nextInside :
        (before.enter .classVarDec).next? =
          some (.keyword kind.keyword) := next
    have connectsKeyword := (advance_eq_ok_iff nextInside).mp readKeyword
    obtain ⟨list, takes, added, connects⟩ :=
      recognizes_variableNames readNames
    exact ⟨⟨list, kind⟩, takes, added,
      (connectsKeyword.append connects).inside .classVarDec⟩

/-! ## Arguments -/

theorem reads_parameterList (parameters : List Parameter)
    (takes : table.TakesAll (parameters.map Parameter.variable))
    (closes : rest.head? = some (.symbol .rightParen)) :
    Reads (parameterList table) labels
      ((Parameter.passageOfList parameters).inside .parameterList) rest
      (table.addAll (parameters.map Parameter.variable)) := by
  refine Reads.within .parameterList ?_
  cases parameters with
  | nil =>
      refine Reads.ite_of_next ?_ (Reads.pure _)
      exact closes
  | cons first others =>
      refine Reads.ite_of_next_ne ?_ ?_
      · intro closed
        have firstToken :
            ((Parameter.passageOfList (first :: others)).tokens ++
              rest).head? = some first.type.token := rfl
        rw [firstToken] at closed
        cases type : first.type <;> simp [type, TypeName.token] at closed
      · refine declaresOne_parameter.reads_commaSeparated first others
          takes ?_
        rw [closes]
        rfl

theorem recognizes_parameterList
    (run : (parameterList table).run before = .ok result behind) :
    ∃ parameters : List Parameter,
      table.TakesAll (parameters.map Parameter.variable) ∧
      result = table.addAll (parameters.map Parameter.variable) ∧
      ((Parameter.passageOfList parameters).inside
        .parameterList).Connects before behind := by
  obtain ⟨outside, inner, rfl⟩ := within_eq_ok_iff.mp run
  rw [run_nextIs_bind] at inner
  split at inner
  · obtain ⟨rfl, rfl⟩ := pure_eq_ok_iff.mp inner
    exact ⟨[], trivial, rfl,
      (Passage.Connects.refl _).inside .parameterList⟩
  · obtain ⟨first, others, takes, added, connects⟩ :=
      declaresOne_parameter.recognizes_commaSeparated inner
    exact ⟨first :: others, takes, added,
      connects.inside .parameterList⟩

/-- The object of a method is declared in an empty table, which takes it. -/
theorem implicitArguments_eq_ok_iff {kind : SubroutineKind}
    {className : String} :
    (implicitArguments kind className).run before = .ok result behind ↔
      result = SymbolTable.empty.addAll
          (kind.implicitVariables className) ∧
        behind = before := by
  cases kind with
  | method =>
      have takes : SymbolTable.empty.Takes
          ⟨Keyword.this.word, .named className, .argument⟩ :=
        ⟨List.not_mem_nil, Nat.zero_lt_succ _⟩
      have declared :
          (declare Keyword.this.word (TypeName.named className).word
            .argument SymbolTable.empty).run before = .ok result behind ↔
              _ :=
        declare_eq_ok_iff
      simp only [takes, true_and] at declared
      exact declared
  | _ => exact pure_eq_ok_iff

end JackToVm.Pass
