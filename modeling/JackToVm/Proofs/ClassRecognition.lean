import JackToVm.Proofs.ClassReading
import JackToVm.Proofs.StatementRecognition

/-!
# Recognizing classes

Whatever a pass accepts as a class is an admissible one, and its passage
connects the states before and behind. So the token lists that are compiled
are exactly the tokens of admissible classes for which there are label numbers
left.
-/

namespace JackToVm

open Passage
open DerivationTree (heightOfList)

namespace Pass

variable {before behind : PassState}
variable {className : String} {classTable : SymbolTable}

/-! ## Subroutines -/

theorem recognizes_subroutineBody {kind : SubroutineKind}
    (result : Option TypeName) {name : String}
    {parameters : List Parameter} {table : SymbolTable}
    (takesArguments : SymbolTable.empty.TakesAll
      (kind.implicitVariables className ++
        parameters.map Parameter.variable))
    (run : (subroutineBody className classTable kind
      (qualifiedName className name)
      (SymbolTable.empty.addAll
        (kind.implicitVariables className ++
          parameters.map Parameter.variable))).run before =
        .ok table behind) :
    ∃ subroutine : SubroutineDeclaration,
      subroutine.kind = kind ∧ subroutine.result = result ∧
      subroutine.name = name ∧ subroutine.parameters = parameters ∧
      subroutine.Admissible classTable.names ∧
      heightOfList subroutine.body.children < bodyRoom ∧
      table = subroutine.table className ∧
      (subroutine.bodyPassage className classTable
        before.labels.used).Connects before behind := by
  obtain ⟨outside, inner, rfl⟩ := within_eq_ok_iff.mp run
  simp only [bind_eq_ok_iff, expectSymbol_eq_ok_iff, emit_eq_ok_iff,
    pure_eq_ok_iff] at inner
  obtain ⟨_, _, connectsLeft, _, _, readLocals, _, between, connectsOpening,
    _, _, readBody, _, _, connectsRight, rfl, rfl⟩ := inner
  obtain ⟨declarations, takesLocals, rfl, connectsLocals⟩ :=
    declaresRounds_varDec.recognizesAll readLocals
  rw [← SymbolTable.addAll_append] at connectsOpening readBody
  have takes := SymbolTable.takesAll_append_iff.mpr
    ⟨takesArguments, takesLocals⟩
  -- The scope does not depend on the body, which is not known yet.
  let header : SubroutineDeclaration :=
    ⟨kind, result, name, parameters, declarations, .nil⟩
  have known :
      (header.scope className classTable).Declares
        (header.argumentNames ++ header.localNames ++ classTable.names) :=
    header.scope_declares className takes
  obtain ⟨body, bodyAdmissible, height, connectsBody⟩ :=
    recognizesStatements known bodyRoom readBody
  have sameUsed : between.labels.used = before.labels.used := by
    simp [connectsOpening.used_eq, connectsLocals.used_eq,
      connectsLeft.used_eq]
  rw [sameUsed] at connectsBody
  let subroutine : SubroutineDeclaration := { header with body := body }
  have distinct :=
    (subroutine.takesAll_entries_iff className).mp takes
  have admissible : subroutine.Admissible classTable.names :=
    ⟨distinct.1, distinct.2.1, distinct.2.2, bodyAdmissible⟩
  refine ⟨subroutine, rfl, rfl, rfl, rfl, admissible, height, ?_, ?_⟩
  · rw [← SymbolTable.addAll_append]
    rfl
  · exact (connectsLeft.append <| connectsLocals.append <|
      connectsOpening.append <|
      connectsBody.append connectsRight).inside .subroutineBody

/-- What a pass accepts as a subroutine of a kind is one. -/
theorem recognizes_subroutineDec {kind : SubroutineKind}
    (begins : before.next?.bind SubroutineKind.ofToken? = some kind)
    (run : (subroutineDec className classTable kind).run before =
      .ok () behind) :
    ∃ subroutine : SubroutineDeclaration,
      subroutine.Admissible classTable.names ∧
      heightOfList subroutine.body.children < bodyRoom ∧
      (subroutine.passage className classTable
        before.labels.used).Connects before behind := by
  obtain ⟨token, next, selected⟩ := Option.bind_eq_some_iff.mp begins
  rw [SubroutineKind.ofToken?_eq_some_iff] at selected
  subst token
  obtain ⟨symbols, _, read, readFinish⟩ := bind_eq_ok_iff.mp run
  obtain ⟨outside, inner, rfl⟩ := within_eq_ok_iff.mp read
  simp only [bind_eq_ok_iff, expectResultType_eq_ok_iff,
    expectName_eq_ok_iff, expectSymbol_eq_ok_iff, pure_eq_ok_iff,
    implicitArguments_eq_ok_iff] at inner
  obtain ⟨_, _, readKind, _, _, ⟨result, connectsResult⟩, name, _,
    connectsName, _, _, ⟨rfl, rfl⟩, _, _, connectsLeft, _, _,
    readParameters, _, between, connectsRight, table, _, readBody, rfl,
    rfl⟩ := inner
  have nextInside :
      (before.enter .subroutineDec).next? =
        some (.keyword kind.keyword) := next
  have connectsKind := (advance_eq_ok_iff nextInside).mp readKind
  obtain ⟨parameters, takesParameters, rfl, connectsParameters⟩ :=
    recognizes_parameterList readParameters
  have takesImplicit : SymbolTable.empty.TakesAll
      (kind.implicitVariables className) := by
    cases kind with
    | method => exact ⟨⟨List.not_mem_nil, Nat.zero_lt_succ _⟩, trivial⟩
    | _ => trivial
  rw [← SymbolTable.addAll_append] at readBody
  obtain ⟨subroutine, rfl, rfl, rfl, rfl, admissible, height, rfl,
      connectsBody⟩ :=
    recognizes_subroutineBody result
      (SymbolTable.takesAll_append_iff.mpr
        ⟨takesImplicit, takesParameters⟩) readBody
  have sameUsed : between.labels.used = before.labels.used := by
    simp [connectsRight.used_eq, connectsParameters.used_eq,
      connectsLeft.used_eq, connectsName.used_eq,
      connectsResult.used_eq, connectsKind.used_eq]
  rw [sameUsed] at connectsBody
  refine ⟨subroutine, admissible, height, ?_⟩
  have connectsDeclaration :=
    (connectsKind.append <| connectsResult.append <|
      connectsName.append <| connectsLeft.append <|
      connectsParameters.append <|
      connectsRight.append connectsBody).inside .subroutineDec
  exact connectsDeclaration.append (finish_eq_ok_iff.mp readFinish)

/-! ## Classes -/

theorem recognizes_subroutines
    (run : (repeatWhile SubroutineKind.ofToken?
      (fun kind _ => subroutineDec className classTable kind)
      ()).run before = .ok () behind) :
    ∃ subroutines : List SubroutineDeclaration,
      (∀ subroutine ∈ subroutines,
        subroutine.Admissible classTable.names ∧
          heightOfList subroutine.body.children < bodyRoom) ∧
      (SubroutineDeclaration.passageOfList className classTable subroutines
        before.labels.used).Connects before behind := by
  refine of_repeatWhile
    (motive := fun _ before _ behind =>
      ∃ subroutines : List SubroutineDeclaration,
        (∀ subroutine ∈ subroutines,
          subroutine.Admissible classTable.names ∧
            heightOfList subroutine.body.children < bodyRoom) ∧
        (SubroutineDeclaration.passageOfList className classTable
          subroutines before.labels.used).Connects before behind)
    ?_ ?_ run
  · intro _ state
    exact ⟨[], List.forall_mem_nil _, .refl state⟩
  · intro kind _ before _ between _ behind begins round later
    obtain ⟨first, admissible, height, connectsFirst⟩ :=
      recognizes_subroutineDec begins round
    obtain ⟨others, fine, connectsOthers⟩ := later
    have usedBehind :
        between.labels.used =
          before.labels.used.behind first.body := by
      rw [connectsFirst.used_eq, first.passage_eq]
      rfl
    rw [usedBehind] at connectsOthers
    refine ⟨first :: others, ?_, connectsFirst.append connectsOthers⟩
    exact List.forall_mem_cons.mpr ⟨⟨admissible, height⟩, fine⟩

theorem recognizes_classDec {head : ClassHead}
    (run : classDec.run before = .ok head behind) :
    ∃ declared : ClassDeclaration, declared.Admissible ∧
      head = ⟨declared.name, declared.table⟩ ∧
      (declared.passage before.labels.used).Connects before behind := by
  obtain ⟨outside, inner, rfl⟩ := within_eq_ok_iff.mp run
  simp only [bind_eq_ok_iff, expectKeyword_eq_ok_iff,
    expectName_eq_ok_iff, expectSymbol_eq_ok_iff, pure_eq_ok_iff] at inner
  obtain ⟨_, _, connectsClass, name, _, connectsName, _, _, connectsLeft,
    _, between, readVariables, _, _, readSubroutines, _, _, connectsRight,
    rfl, rfl⟩ := inner
  obtain ⟨declarations, takes, rfl, connectsVariables⟩ :=
    declaresRounds_classVarDec.recognizesAll readVariables
  obtain ⟨subroutines, fine, connectsSubroutines⟩ :=
    recognizes_subroutines readSubroutines
  have sameUsed : between.labels.used = before.labels.used := by
    simp [connectsVariables.used_eq, connectsLeft.used_eq,
      connectsName.used_eq, connectsClass.used_eq]
  rw [sameUsed] at connectsSubroutines
  let declared : ClassDeclaration := ⟨name, declarations, subroutines⟩
  have distinct := declared.takesAll_entries_iff.mp takes
  have admissible : declared.Admissible := by
    refine ⟨distinct.1, distinct.2, ?_, ?_⟩
    · intro subroutine member
      rw [← declared.names_table takes]
      exact (fine subroutine member).1
    · rw [ClassDeclaration.height_le_iff]
      intro subroutine member
      exact (fine subroutine member).2
  refine ⟨declared, admissible, rfl, ?_⟩
  exact (connectsClass.append <| connectsName.append <|
    connectsLeft.append <| connectsVariables.append <|
    connectsSubroutines.append connectsRight).inside .classDec

theorem recognizes_compilationUnit {head : ClassHead}
    (run : compilationUnit.run before = .ok head behind) :
    ∃ declared : ClassDeclaration, declared.Admissible ∧
      head = ⟨declared.name, declared.table⟩ ∧ behind.rest = [] ∧
      (declared.passage before.labels.used).Connects before behind := by
  obtain ⟨_, between, readClass, ended⟩ := bind_eq_ok_iff.mp run
  obtain ⟨declared, admissible, rfl, connects⟩ :=
    recognizes_classDec readClass
  rw [run_peek_bind] at ended
  cases next : between.next? with
  | some token =>
      rw [next] at ended
      obtain ⟨_, _, refused, _⟩ := bind_eq_ok_iff.mp ended
      exact absurd refused unexpected_ne_ok
  | none =>
      rw [next] at ended
      obtain ⟨rfl, rfl⟩ := pure_eq_ok_iff.mp ended
      rw [PassState.next?_eq_head?, List.head?_eq_none_iff] at next
      exact ⟨declared, admissible, rfl, next, connects⟩

end Pass

/-! ## Compilation -/

/-- A pass that succeeds has read the tokens of an admissible class. -/
theorem recognizes_runPass {tokens : List Token} {labels : LabelCounters}
    {head : Pass.ClassHead} {final : PassState}
    (run : runPass tokens labels = .ok head final) :
    ∃ declared : ClassDeclaration, declared.Admissible ∧
      tokens = declared.tokens ∧ labels.Allow declared.count := by
  obtain ⟨declared, admissible, _, ended, connects⟩ :=
    Pass.recognizes_compilationUnit run
  refine ⟨declared, admissible, ?_, ?_⟩
  · have read := connects.rest_eq
    rw [PassState.rest_start, ended, List.append_nil,
      declared.tokens_passage] at read
    exact read
  · have allowed := connects.allowed
    rw [declared.passage_eq] at allowed
    exact allowed

end JackToVm
