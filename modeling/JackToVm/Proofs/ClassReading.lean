import JackToVm.Proofs.DeclarationReading
import JackToVm.Proofs.StatementReading

/-!
# Reading classes

A pass reads an admissible class by its passage, and so the compilation of the
tokens of an admissible class yields the program that is found on its tree.
-/

namespace JackToVm

open Passage
open DerivationTree (heightOfList)

/-! ## Height -/

theorem DerivationTree.heightOfList_map_le_iff {γ : Type}
    {treeOf : γ → DerivationTree} {list : List γ} {room : Nat} :
    heightOfList (list.map treeOf) ≤ room ↔
      ∀ one ∈ list, (treeOf one).height ≤ room := by
  induction list with
  | nil => simp
  | cons first others inductionHypothesis =>
      simp [inductionHypothesis]

theorem DerivationTree.heightOfList_flatMap {γ : Type}
    (treesOf : γ → List DerivationTree)
    (flat : ∀ one, heightOfList (treesOf one) = 0) (list : List γ) :
    heightOfList (list.flatMap treesOf) = 0 := by
  induction list with
  | nil => rfl
  | cons first others inductionHypothesis =>
      rw [List.flatMap_cons, heightOfList_append, flat first,
        inductionHypothesis]
      rfl

theorem VariableList.height_children (list : VariableList) :
    heightOfList list.children = 0 := by
  have others := DerivationTree.heightOfList_flatMap
    (fun other => [.symbol .comma, .name other])
    (fun _ => rfl) list.others
  rw [children, List.cons_append, heightOfList, List.cons_append,
    heightOfList, DerivationTree.heightOfList_append, others]
  rfl

theorem Parameter.height_childrenOfList (parameters : List Parameter) :
    heightOfList (childrenOfList parameters) = 0 := by
  cases parameters with
  | nil => rfl
  | cons first others =>
      have others := DerivationTree.heightOfList_flatMap
        (fun other => .symbol .comma :: children other)
        (fun _ => rfl) others
      rw [childrenOfList, DerivationTree.heightOfList_append, others]
      rfl

/-- Only what stands inside of statements can be too deep. -/
theorem ClassDeclaration.height_le_iff (declared : ClassDeclaration) :
    declared.derivation.height ≤ Node.maxDepth ↔
      ∀ subroutine ∈ declared.subroutines,
        heightOfList subroutine.body.children < Pass.bodyRoom := by
  have classVariables : ∀ list : ClassVariableList,
      list.derivation.height ≤ Node.maxDepth - 1 := by
    intro list
    simp only [ClassVariableList.derivation,
      DerivationTree.height_branch, heightOfList,
      DerivationTree.height_keyword, list.toVariableList.height_children]
    decide
  have locals : ∀ list : VariableList,
      list.derivation.height ≤ Pass.bodyRoom := by
    intro list
    simp only [VariableList.derivation, DerivationTree.height_branch,
      heightOfList, DerivationTree.height_keyword, list.height_children]
    decide
  have parameters : ∀ list : List Parameter,
      heightOfList (Parameter.childrenOfList list) ≤ Pass.bodyRoom := by
    intro list
    rw [Parameter.height_childrenOfList]
    exact Nat.zero_le _
  have room : Node.maxDepth - 1 = Pass.bodyRoom + 1 + 1 := rfl
  have subroutines : ∀ subroutine : SubroutineDeclaration,
      subroutine.derivation.height ≤ Node.maxDepth - 1 ↔
        heightOfList subroutine.body.children < Pass.bodyRoom := by
    intro subroutine
    rw [room]
    simp only [SubroutineDeclaration.derivation,
      SubroutineDeclaration.bodyDerivation,
      SubroutineDeclaration.resultDerivation_eq, Statements.derivation,
      List.cons_append, DerivationTree.height,
      DerivationTree.height_branch, DerivationTree.height_keyword,
      DerivationTree.height_name, DerivationTree.height_symbol,
      DerivationTree.heightOfList_nil,
      DerivationTree.heightOfList_cons_le_iff,
      DerivationTree.heightOfList_append_le_iff,
      DerivationTree.heightOfList_map_le_iff, Nat.add_le_add_iff_right,
      Nat.zero_le, Nat.le_add_left, Nat.lt_iff_add_one_le, parameters,
      locals, implies_true, and_self, and_true, true_and]
  have outside :
      Node.maxDepth = (Node.maxDepth - 1) + 1 := rfl
  rw [outside]
  simp only [ClassDeclaration.derivation, List.cons_append,
    List.nil_append, List.append_assoc, DerivationTree.height_branch,
    DerivationTree.height_keyword, DerivationTree.height_name,
    DerivationTree.height_symbol, DerivationTree.heightOfList_nil,
    DerivationTree.heightOfList_cons_le_iff,
    DerivationTree.heightOfList_append_le_iff,
    DerivationTree.heightOfList_map_le_iff, Nat.add_le_add_iff_right,
    Nat.zero_le, classVariables, subroutines, implies_true, and_self,
    and_true, true_and]

namespace Pass

variable {before behind : PassState}
variable {labels : LabelCounters} {rest : List Token}

/-! ## Steps of subroutines -/

theorem expectResultType_eq_ok_iff {value : Unit} :
    expectResultType.run before = .ok value behind ↔
      ∃ result, (leaf (TypeName.resultToken result)).Connects before
        behind := by
  rw [expectResultType, run_nextIs_bind]
  by_cases isVoid : before.next? = some (.keyword .void)
  · simp only [isVoid, BEq.rfl, if_true]
    rw [advance_eq_ok_iff isVoid]
    constructor
    · intro connects
      exact ⟨none, connects⟩
    · intro found
      obtain ⟨result, connects⟩ := found
      cases result with
      | none => exact connects
      | some type =>
          have next : before.next? = some type.token := connects.next?_eq
          rw [isVoid] at next
          cases type <;> cases next
  · have notVoid :
        (before.next? == some (.keyword .void)) = false := by
      simpa using isVoid
    simp only [notVoid, Bool.false_eq_true, if_false, run_peek_bind]
    constructor
    · intro run
      split at run
      next isType =>
        obtain ⟨type, selected⟩ := Option.isSome_iff_exists.mp isType
        obtain ⟨token, next, named⟩ :=
          Option.bind_eq_some_iff.mp selected
        rw [TypeName.ofToken?_eq_some_iff] at named
        subst token
        exact ⟨some type, (advance_eq_ok_iff next).mp run⟩
      next => exact absurd run unexpected_ne_ok
    · intro found
      obtain ⟨result, connects⟩ := found
      cases result with
      | none => exact absurd connects.next?_eq isVoid
      | some type =>
          have next : before.next? = some type.token := connects.next?_eq
          have selected :
              before.next?.bind TypeName.ofToken? = some type := by
            rw [next]
            exact TypeName.ofToken?_eq_some_iff.mpr rfl
          simp only [selected, Option.isSome_some, if_true]
          exact (advance_eq_ok_iff next).mpr connects

/-- A finished subroutine is put behind the others. -/
def finish (symbols : String × SymbolTable) : Pass Unit :=
  modify fun state =>
    { state with subroutines := state.subroutines.push symbols }

theorem finish_eq_ok_iff {symbols : String × SymbolTable} :
    (finish symbols).run before = .ok () behind ↔
      (finished symbols.1 symbols.2).Connects before behind := by
  have run :
      (finish symbols).run before =
        .ok () { before with
          subroutines := before.subroutines.push symbols } := rfl
  have pushed :
      before.after (finished symbols.1 symbols.2) =
        { before with
          subroutines := before.subroutines.push symbols } := by
    have appended :
        before.subroutines ++ [symbols] =
          before.subroutines.push symbols := by
      apply Array.ext'
      simp
    simp [PassState.after, finished, empty, tokens,
      LabelCounters.advance, appended]
  rw [run, EStateM.Result.ok.injEq]
  constructor
  · intro same
    exact ⟨by rw [pushed, same.2], by rw [← same.2]; rfl,
      fun _ => Nat.zero_le _⟩
  · intro connects
    exact ⟨rfl, by rw [connects.behind_eq, pushed]⟩

theorem Reads.expectResultType (result : Option TypeName) :
    Reads Pass.expectResultType labels (leaf (TypeName.resultToken result))
      rest () :=
  fun _ _ connects _ _ =>
    expectResultType_eq_ok_iff.mpr ⟨result, connects⟩

theorem Reads.finish (symbols : String × SymbolTable) :
    Reads (Pass.finish symbols) labels (finished symbols.1 symbols.2) rest
      () :=
  fun _ _ connects _ _ => finish_eq_ok_iff.mpr connects

/-! ## Subroutines -/

theorem reads_subroutineBody {className : String}
    {classTable : SymbolTable} (subroutine : SubroutineDeclaration)
    {declared : List String} {used : NumbersUsed}
    (known : (subroutine.scope className classTable).Declares declared)
    (takes : SymbolTable.empty.TakesAll (subroutine.entries className))
    (admissible : subroutine.body.Admissible declared)
    (height : heightOfList subroutine.body.children < bodyRoom)
    (same : labels.used = used) :
    Reads
      (subroutineBody className classTable subroutine.kind
        (qualifiedName className subroutine.name)
        (SymbolTable.empty.addAll
          (subroutine.kind.implicitVariables className ++
            subroutine.parameters.map Parameter.variable)))
      labels (subroutine.bodyPassage className classTable used) rest
      (subroutine.table className) := by
  rw [SubroutineDeclaration.entries, SymbolTable.takesAll_append_iff]
    at takes
  have noDeclaration :
      ((subroutine.body.passage (subroutine.scope className classTable)
          used).tokens ++ .symbol .rightBrace :: rest).head? ≠
        some (.keyword .var) :=
    next_ne rfl rfl (by decide)
  refine Reads.within .subroutineBody ?_
  refine Reads.bind (Reads.expectSymbol .leftBrace) ?_
  refine Reads.bind (Reads.repeatWhile
    (declaresRounds_varDec.readsLoop ?_ subroutine.declarations takes.2))
    ?_
  · rw [bind_exactly_eq_none_iff]
    simpa [concat] using noDeclaration
  · rw [← SymbolTable.addAll_append]
    refine Reads.bind (Reads.emit _) ?_
    refine Reads.bind
      ((reads_statements known subroutine.body admissible).node height ?_
        rfl) ?_
    · simpa using same
    · exact Reads.map (Reads.expectSymbol .rightBrace)

theorem reads_subroutineDec {className : String}
    {classTable : SymbolTable} (subroutine : SubroutineDeclaration)
    {used : NumbersUsed}
    (admissible : subroutine.Admissible classTable.names)
    (height : heightOfList subroutine.body.children < bodyRoom)
    (same : labels.used = used) :
    Reads (subroutineDec className classTable subroutine.kind) labels
      (subroutine.passage className classTable used) rest () := by
  have takes :=
    (subroutine.takesAll_entries_iff className).mpr
      ⟨admissible.names_nodup, admissible.arguments_le,
        admissible.locals_le⟩
  have known :
      (subroutine.scope className classTable).Declares
        (subroutine.argumentNames ++ subroutine.localNames ++
          classTable.names) :=
    subroutine.scope_declares className takes
  have takesArguments := takes
  rw [SubroutineDeclaration.entries, SymbolTable.takesAll_append_iff,
    SymbolTable.takesAll_append_iff] at takesArguments
  refine Reads.bind ?_
    (Reads.finish (subroutine.symbols className))
  refine Reads.within .subroutineDec ?_
  refine Reads.bind (Reads.advance _) ?_
  refine Reads.bind (Reads.expectResultType subroutine.result) ?_
  refine Reads.bind (Reads.expectName .subroutine subroutine.name) ?_
  refine Reads.bind_of_run
    (fun _ => implicitArguments_eq_ok_iff.mpr ⟨rfl, rfl⟩) ?_
  refine Reads.bind (Reads.expectSymbol .leftParen) ?_
  refine Reads.bind (reads_parameterList subroutine.parameters
    takesArguments.1.2 rfl) ?_
  refine Reads.bind (Reads.expectSymbol .rightParen) ?_
  rw [← SymbolTable.addAll_append]
  exact Reads.map
    (reads_subroutineBody subroutine known takes admissible.body height
      (by simpa using same))

/-! ## Classes -/

theorem readsLoop_subroutines {className : String}
    {classTable : SymbolTable}
    (closes : rest.head? = some (.symbol .rightBrace)) :
    ∀ (subroutines : List SubroutineDeclaration) {labels : LabelCounters}
      {used : NumbersUsed},
      (∀ subroutine ∈ subroutines,
        subroutine.Admissible classTable.names ∧
          heightOfList subroutine.body.children < bodyRoom) →
      labels.used = used →
      ReadsLoop SubroutineKind.ofToken?
        (fun kind _ => subroutineDec className classTable kind) labels
        (SubroutineDeclaration.passageOfList className classTable
          subroutines used) rest () ()
  | [], _, _, _, _ => by
      refine ReadsLoop.stop ?_
      rw [closes]
      rfl
  | first :: others, labels, used, fine, same => by
      have fineFirst := fine first List.mem_cons_self
      have begins :
          (first.passage className classTable used).tokens.head?.bind
              SubroutineKind.ofToken? = some first.kind :=
        SubroutineKind.ofToken?_eq_some_iff.mpr rfl
      have sameBehind :
          (labels.advance
              (first.passage className classTable used).numbers).used =
            used.behind first.body := by
        rw [LabelCounters.used_advance, same, first.passage_eq]
        rfl
      refine ReadsLoop.again begins
        (reads_subroutineDec first fineFirst.1 fineFirst.2 same) ?_
      refine readsLoop_subroutines closes others ?_ sameBehind
      intro subroutine member
      exact fine subroutine (List.mem_cons_of_mem first member)

theorem reads_classDec (declared : ClassDeclaration) {used : NumbersUsed}
    (admissible : declared.Admissible) (same : labels.used = used) :
    Reads classDec labels (declared.passage used) rest
      ⟨declared.name, declared.table⟩ := by
  have takes := declared.takesAll_entries_iff.mpr
    ⟨admissible.names_nodup, admissible.variables_le⟩
  have fine : ∀ subroutine ∈ declared.subroutines,
      subroutine.Admissible declared.table.names ∧
        heightOfList subroutine.body.children < bodyRoom := by
    intro subroutine member
    rw [declared.names_table takes]
    exact ⟨admissible.subroutines subroutine member,
      declared.height_le_iff.mp admissible.height_le subroutine member⟩
  have noDeclaration : ∀ later : List Token,
      ((SubroutineDeclaration.passageOfList declared.name declared.table
          declared.subroutines used).tokens ++
            .symbol .rightBrace :: later).head?.bind
        ClassVariableKind.ofToken? = none := by
    intro later
    cases declared.subroutines with
    | nil => rfl
    | cons first others =>
        have next :
            ((SubroutineDeclaration.passageOfList declared.name
                declared.table (first :: others) used).tokens ++
                  .symbol .rightBrace :: later).head? =
              some (.keyword first.kind.keyword) := rfl
        rw [next]
        cases first.kind <;> rfl
  refine Reads.within .classDec ?_
  refine Reads.bind (Reads.expectKeyword .classWord) ?_
  refine Reads.bind (Reads.expectName .className declared.name) ?_
  refine Reads.bind (Reads.expectSymbol .leftBrace) ?_
  refine Reads.bind (Reads.repeatWhile
    (declaresRounds_classVarDec.readsLoop ?_ declared.declarations takes))
    ?_
  · simpa [concat] using noDeclaration rest
  · refine Reads.bind (Reads.repeatWhile
      (readsLoop_subroutines rfl declared.subroutines fine ?_)) ?_
    · simpa using same
    · exact Reads.map (Reads.expectSymbol .rightBrace)

theorem reads_compilationUnit (declared : ClassDeclaration)
    {used : NumbersUsed} (admissible : declared.Admissible)
    (same : labels.used = used) :
    Reads compilationUnit labels (declared.passage used) []
      ⟨declared.name, declared.table⟩ := by
  intro before behind connects sameLabels ended
  have run := reads_classDec declared admissible same before behind
    connects sameLabels ended
  have noToken : behind.next? = none := by
    rw [PassState.next?_eq_head?, ended]
    rfl
  refine bind_eq_ok_iff.mpr ⟨_, behind, run, ?_⟩
  rw [run_peek_bind, noToken]
  rfl

end Pass

/-! ## Compilation -/

theorem runPass_tokens {declared : ClassDeclaration}
    {labels : LabelCounters} (admissible : declared.Admissible)
    (allowed : labels.Allow declared.count) :
    runPass declared.tokens labels =
      .ok ⟨declared.name, declared.table⟩
        ((PassState.start declared.tokens labels).after
          (declared.passage labels.used)) := by
  have next :
      (PassState.start declared.tokens labels).rest =
        (declared.passage labels.used).tokens ++ [] := by
    rw [PassState.rest_start, declared.tokens_passage, List.append_nil]
  have numbers :
      (declared.passage labels.used).numbers = declared.count := by
    rw [declared.passage_eq]
  have left :
      (PassState.start declared.tokens labels).labels.Allow
        (declared.passage labels.used).numbers := by
    rw [numbers]
    exact allowed
  obtain ⟨connects, ended⟩ := Connects.of_rest next left
  exact Pass.reads_compilationUnit declared admissible rfl _ _ connects rfl
    ended

theorem compile_of_runPass {declared : ClassDeclaration}
    {tokens : List Token} {labels : LabelCounters}
    (run : runPass tokens labels =
      .ok ⟨declared.name, declared.table⟩
        ((PassState.start tokens labels).after
          (declared.passage labels.used))) :
    compile tokens labels =
      (.ok (declared.program labels.used),
        labels.advance declared.count) := by
  rw [compile, run]
  simp [PassState.after, PassState.start, declared.passage_eq]
  rfl

end JackToVm
