import JackToVm.Grammar.Class
import JackToVm.Proofs.StatementParsing

/-!
# Parsing classes

Declarations, subroutines and classes are composed of their parts one behind
the other, and what begins each part is told from what stands behind the
repetition before it. So the whole pass parses the language of classes in front
of the end.
-/

namespace JackToVm

open Grammar
open scoped Computability
open DerivationTree (yieldOfList)

namespace Grammar

/-! ## Languages of declarations -/

abbrev type : Language Token :=
  oneOf TypeName.token

abbrev otherName : Language Token :=
  only (.symbol .comma) * name

/-- Names with commas between them, up to the semicolon. -/
abbrev declaredNames : Language Token :=
  name * otherName∗ * only (.symbol .semicolon)

theorem yields_otherName :
    (yields fun text : String => [.symbol .comma, .name text]) =
      otherName := by
  ext word
  constructor
  · rintro ⟨text, rfl⟩
    exact mem_only_mul _ ⟨text, rfl⟩
  · intro member
    obtain ⟨_, _, ⟨text, rfl⟩, rfl⟩ := mem_oneOf_mul_iff.mp member
    exact ⟨text, rfl⟩

theorem yields_variableList :
    yields VariableList.children = type * declaredNames := by
  ext word
  constructor
  · rintro ⟨list, rfl⟩
    have others : yieldOfList (list.others.flatMap fun text =>
        [.symbol .comma, .name text]) ∈ otherName∗ := by
      rw [← yields_otherName, ← yields_flatMap]
      exact mem_yields _ list.others
    have names := Language.append_mem_mul
      (mem_oneOf_mul Token.identifier list.first others)
      (mem_only (.symbol .semicolon))
    have whole := mem_oneOf_mul TypeName.token list.type names
    simpa [VariableList.children, TypeName.derivation,
      DerivationTree.yieldOfList_append] using whole
  · intro member
    obtain ⟨type, _, names, rfl⟩ := mem_oneOf_mul_iff.mp member
    obtain ⟨_, named, _, ⟨_, rfl⟩, rfl⟩ := Language.mem_mul.mp names
    obtain ⟨first, _, more, rfl⟩ := mem_oneOf_mul_iff.mp named
    rw [← yields_otherName, ← yields_flatMap] at more
    obtain ⟨others, rfl⟩ := more
    refine ⟨⟨type, first, others⟩, ?_⟩
    simp [VariableList.children, TypeName.derivation,
      DerivationTree.yieldOfList_append]

abbrev varDec : Language Token :=
  only (.keyword .var) * (type * declaredNames)

theorem yields_varDec :
    (yields fun list : VariableList => [list.derivation]) = varDec := by
  rw [varDec, ← yields_variableList]
  ext word
  constructor
  · rintro ⟨list, rfl⟩
    have whole := mem_only_mul (.keyword .var)
      (mem_yields VariableList.children list)
    simpa [VariableList.derivation] using whole
  · intro member
    obtain ⟨_, _, ⟨list, rfl⟩, rfl⟩ := mem_oneOf_mul_iff.mp member
    refine ⟨list, ?_⟩
    simp [VariableList.derivation]

abbrev classVarDec : Language Token :=
  (oneOf fun kind : ClassVariableKind => .keyword kind.keyword) *
    (type * declaredNames)

theorem yields_classVarDec :
    (yields fun list : ClassVariableList => [list.derivation]) =
      classVarDec := by
  rw [classVarDec, ← yields_variableList]
  ext word
  constructor
  · rintro ⟨list, rfl⟩
    have whole := mem_oneOf_mul (fun kind : ClassVariableKind =>
      .keyword kind.keyword) list.kind
      (mem_yields VariableList.children list.toVariableList)
    simpa [ClassVariableList.derivation] using whole
  · intro member
    obtain ⟨kind, _, ⟨list, rfl⟩, rfl⟩ := mem_oneOf_mul_iff.mp member
    refine ⟨⟨list, kind⟩, ?_⟩
    simp [ClassVariableList.derivation]

/-! ## Languages of subroutines -/

abbrev parameter : Language Token :=
  type * name

abbrev otherParameter : Language Token :=
  only (.symbol .comma) * parameter

theorem yields_otherParameter :
    (yields fun parameter : Parameter =>
        .symbol .comma :: parameter.children) = otherParameter := by
  ext word
  constructor
  · rintro ⟨parameter, rfl⟩
    exact mem_only_mul _ (mem_oneOf_mul _ parameter.type
      ⟨parameter.name, rfl⟩)
  · intro member
    obtain ⟨_, _, typed, rfl⟩ := mem_oneOf_mul_iff.mp member
    obtain ⟨type, _, ⟨text, rfl⟩, rfl⟩ := mem_oneOf_mul_iff.mp typed
    exact ⟨⟨type, text⟩, rfl⟩

/-- The parameters of a subroutine: none, or some with commas between them. -/
theorem yields_parameterList :
    yields Parameter.childrenOfList =
      1 + parameter * otherParameter∗ := by
  rw [← yields_otherParameter, ← yields_flatMap]
  ext word
  constructor
  · rintro ⟨list, rfl⟩
    cases list with
    | nil => exact mem_add_left Language.nil_mem_one
    | cons first others =>
        have one : [first.type.token, .identifier first.name] ∈ parameter :=
          mem_oneOf_mul _ first.type ⟨first.name, rfl⟩
        have whole := Language.append_mem_mul one
          (mem_yields (fun list : List Parameter => list.flatMap
            fun parameter => .symbol .comma :: parameter.children) others)
        refine mem_add_right ?_
        simpa [Parameter.childrenOfList, Parameter.children,
          TypeName.derivation] using whole
  · intro member
    rcases (Language.mem_add ..).mp member with none | some
    · rw [Language.mem_one] at none
      exact ⟨[], none.symm⟩
    · obtain ⟨_, first, _, more, rfl⟩ := Language.mem_mul.mp some
      obtain ⟨type, _, ⟨text, rfl⟩, rfl⟩ := mem_oneOf_mul_iff.mp first
      obtain ⟨others, rfl⟩ := more
      refine ⟨⟨type, text⟩ :: others, ?_⟩
      simp [Parameter.childrenOfList, Parameter.children,
        TypeName.derivation]

/-- The type of the result of a subroutine, or the word for none. -/
abbrev resultType : Language Token :=
  only (.keyword .void) + type

abbrev subroutineBody : Language Token :=
  only (.symbol .leftBrace) *
    (varDec∗ * (yields Statements.children * only (.symbol .rightBrace)))

abbrev subroutineDec : Language Token :=
  (oneOf fun kind : SubroutineKind => .keyword kind.keyword) *
    (resultType * (name * (only (.symbol .leftParen) *
      (yields Parameter.childrenOfList *
        (only (.symbol .rightParen) * subroutineBody)))))

theorem mem_subroutineBody_iff {word : List Token} :
    word ∈ subroutineBody ↔
      ∃ (declarations : List VariableList) (body : Statements),
        .symbol .leftBrace ::
          (yieldOfList (declarations.map VariableList.derivation) ++
            (yieldOfList body.children ++ [.symbol .rightBrace])) = word := by
  rw [subroutineBody, ← yields_varDec, ← yields_flatMap]
  constructor
  · intro member
    obtain ⟨_, _, inner, rfl⟩ := mem_oneOf_mul_iff.mp member
    obtain ⟨declarations, _, behind, rfl⟩ := mem_yields_mul_iff.mp inner
    obtain ⟨body, _, ⟨_, rfl⟩, rfl⟩ := mem_yields_mul_iff.mp behind
    refine ⟨declarations, body, ?_⟩
    rw [List.map_eq_flatMap]
  · rintro ⟨declarations, body, rfl⟩
    rw [List.map_eq_flatMap]
    exact mem_only_mul _ (mem_yields_mul _ declarations
      (mem_yields_mul _ body (mem_only _)))

theorem mem_resultType_iff {word : List Token} :
    word ∈ resultType ↔ ∃ result : Option TypeName,
      [result.elim (.keyword .void) TypeName.token] = word := by
  constructor
  · intro member
    rcases (Language.mem_add ..).mp member with void | typed
    · obtain ⟨_, rfl⟩ := void
      exact ⟨none, rfl⟩
    · obtain ⟨type, rfl⟩ := typed
      exact ⟨some type, rfl⟩
  · rintro ⟨_ | type, rfl⟩
    · exact mem_add_left (mem_only _)
    · exact mem_add_right ⟨type, rfl⟩

theorem yield_resultDerivation (subroutine : SubroutineDeclaration) :
    subroutine.resultDerivation.yield =
      [subroutine.result.elim (.keyword .void) TypeName.token] := by
  unfold SubroutineDeclaration.resultDerivation
  cases subroutine.result <;> rfl

theorem yields_subroutineDec :
    (yields fun subroutine : SubroutineDeclaration =>
        [subroutine.derivation]) = subroutineDec := by
  ext word
  constructor
  · rintro ⟨subroutine, rfl⟩
    have body := mem_subroutineBody_iff.mpr
      ⟨subroutine.declarations, subroutine.body, rfl⟩
    have parameters := mem_only_mul (.symbol .leftParen)
      (mem_yields_mul Parameter.childrenOfList subroutine.parameters
        (mem_only_mul (.symbol .rightParen) body))
    have typed := Language.append_mem_mul
      (mem_resultType_iff.mpr ⟨subroutine.result, rfl⟩)
      (mem_oneOf_mul Token.identifier subroutine.name parameters)
    have whole := mem_oneOf_mul (fun kind : SubroutineKind =>
      .keyword kind.keyword) subroutine.kind typed
    convert whole using 1
    simp [SubroutineDeclaration.derivation, yield_resultDerivation,
      SubroutineDeclaration.bodyDerivation, Statements.derivation,
      DerivationTree.yieldOfList_append]
  · intro member
    obtain ⟨kind, _, typed, rfl⟩ := mem_oneOf_mul_iff.mp member
    obtain ⟨_, resultWord, _, named, rfl⟩ := Language.mem_mul.mp typed
    obtain ⟨result, rfl⟩ := mem_resultType_iff.mp resultWord
    obtain ⟨text, _, opened, rfl⟩ := mem_oneOf_mul_iff.mp named
    obtain ⟨_, _, inner, rfl⟩ := mem_oneOf_mul_iff.mp opened
    obtain ⟨parameters, _, closed, rfl⟩ := mem_yields_mul_iff.mp inner
    obtain ⟨_, _, braced, rfl⟩ := mem_oneOf_mul_iff.mp closed
    obtain ⟨declarations, body, rfl⟩ := mem_subroutineBody_iff.mp braced
    refine ⟨⟨kind, result, text, parameters, declarations, body⟩, ?_⟩
    simp [SubroutineDeclaration.derivation, yield_resultDerivation,
      SubroutineDeclaration.bodyDerivation, Statements.derivation,
      DerivationTree.yieldOfList_append]

/-! ## The language of classes -/

abbrev classDec : Language Token :=
  only (.keyword .classWord) * (name * (only (.symbol .leftBrace) *
    (classVarDec∗ * (subroutineDec∗ * only (.symbol .rightBrace)))))

/-- The token lists of classes. -/
theorem mem_classDec_iff {word : List Token} :
    word ∈ classDec ↔
      ∃ declared : ClassDeclaration, declared.tokens = word := by
  rw [classDec, ← yields_classVarDec, ← yields_subroutineDec,
    ← yields_flatMap, ← yields_flatMap]
  constructor
  · intro member
    obtain ⟨_, _, named, rfl⟩ := mem_oneOf_mul_iff.mp member
    obtain ⟨text, _, opened, rfl⟩ := mem_oneOf_mul_iff.mp named
    obtain ⟨_, _, inner, rfl⟩ := mem_oneOf_mul_iff.mp opened
    obtain ⟨declarations, _, behind, rfl⟩ := mem_yields_mul_iff.mp inner
    obtain ⟨subroutines, _, ⟨_, rfl⟩, rfl⟩ := mem_yields_mul_iff.mp behind
    refine ⟨⟨text, declarations, subroutines⟩, ?_⟩
    simp [ClassDeclaration.tokens, ClassDeclaration.derivation,
      List.map_eq_flatMap, DerivationTree.yieldOfList_append]
  · rintro ⟨declared, rfl⟩
    have inner := mem_yields_mul
      (fun lists : List ClassVariableList =>
        lists.flatMap fun list => [list.derivation])
      declared.declarations
      (mem_yields_mul
        (fun subroutines : List SubroutineDeclaration =>
          subroutines.flatMap fun subroutine => [subroutine.derivation])
        declared.subroutines (mem_only (.symbol .rightBrace)))
    have whole := mem_only_mul (.keyword .classWord)
      (mem_oneOf_mul Token.identifier declared.name
        (mem_only_mul (.symbol .leftBrace) inner))
    simpa [ClassDeclaration.tokens, ClassDeclaration.derivation,
      List.map_eq_flatMap, DerivationTree.yieldOfList_append] using whole

/-! ## What begins a declaration -/

theorem leads_classVarDec {behind : Option Token → Prop} :
    Leads classVarDec behind fun next =>
      (next.bind ClassVariableKind.ofToken?).isSome := by
  refine .mul (.oneOf fun kind => ?_) .true
  rw [Option.bind_some, ClassVariableKind.ofToken?_eq_some_iff.mpr rfl]
  rfl

theorem leads_subroutineDec {behind : Option Token → Prop} :
    Leads subroutineDec behind fun next =>
      (next.bind SubroutineKind.ofToken?).isSome := by
  refine .mul (.oneOf fun kind => ?_) .true
  rw [Option.bind_some, SubroutineKind.ofToken?_eq_some_iff.mpr rfl]
  rfl

end Grammar

namespace Pass.Parses

variable {next : Option (Option Token)} {follow : Option Token → Prop}

/-! ## Declarations -/

theorem variableNames (type : TypeName) (kind : VariableKind)
    (table : SymbolTable) :
    Parses next (Pass.variableNames type kind table) declaredNames
      follow := by
  have item : ∀ found : SymbolTable, Parses none
      (do
        let name ← Pass.expectName .variable
        Pass.declare name type.word kind found)
      Grammar.name fun _ => True :=
    fun found => .bind_nothing (expectName .variable) fun name =>
      declare name type.word kind found
  refine .bind (of_unknown (commaSeparated table item ?_ ?_ ?_))
    (.oneOf fun _ => rfl) fun behind => ?_
  · rintro _ rfl
    simp
  · trivial
  · exact fun _ _ => trivial
  · exact .bind_nothing (expectSymbol .semicolon) fun _ => .pure behind

theorem varDec (table : SymbolTable) :
    Parses next (Pass.varDec table) Grammar.varDec follow := by
  refine .within .varDec ?_
  refine .mul (expectKeyword .var) fun _ => ?_
  exact .mul expectType fun type => variableNames type .local table

theorem classVarDec (kind : ClassVariableKind) (table : SymbolTable) :
    Parses (some (some (.keyword kind.keyword)))
      (Pass.classVarDec kind table) Grammar.classVarDec follow := by
  refine .within .classVarDec ?_
  refine .mul (.advance (fun kind : ClassVariableKind =>
    .keyword kind.keyword) kind) fun _ => ?_
  exact .mul expectType fun type => variableNames type kind.kind table

theorem parameterList (table : SymbolTable) :
    Parses next (Pass.parameterList table)
      (yields Parameter.childrenOfList)
      (· = some (.symbol .rightParen)) := by
  rw [yields_parameterList]
  refine .within .parameterList ?_
  refine ite_next ?_ fun found different => ?_
  · refine .left (.pure table) (.mul (.mul (.oneOf fun type => ?_) .true)
      .true)
    cases type <;> simp [TypeName.token]
  · have item : ∀ found : SymbolTable, Parses none
        (do
          let type ← Pass.expectType
          let name ← Pass.expectName .parameter
          Pass.declare name type.word .argument found)
        parameter fun _ => True := by
      intro found
      refine .mul expectType fun type => ?_
      exact .bind_nothing (expectName .parameter) fun name =>
        declare name type.word .argument found
    refine .right (of_unknown (commaSeparated table item ?_ ?_ ?_))
      (.one fun next closes => ?_)
    · rintro _ rfl
      simp
    · trivial
    · exact fun _ _ => trivial
    · rw [closes]
      exact different.symm

/-! ## Subroutines -/

theorem expectResultType :
    Parses next Pass.expectResultType resultType follow := by
  refine ite_next ?_ fun found different => ?_
  · refine .left (.take _) (.oneOf fun type => ?_)
    cases type <;> simp [TypeName.token]
  · refine .peek fun seen known => ?_
    -- the token looked at again is the one that was not `void`
    obtain rfl := known found rfl
    cases selected : found.bind TypeName.ofToken? with
    | none =>
        refine .unexpected ⟨_, mem_add_left (mem_only _)⟩
          (.add (.oneOf fun _ => different.symm) (.oneOf fun type => ?_))
        rintro rfl
        rw [Option.bind_some,
          TypeName.ofToken?_eq_some_iff.mpr rfl] at selected
        cases selected
    | some type =>
        obtain ⟨token, rfl, named⟩ := Option.bind_eq_some_iff.mp selected
        rw [TypeName.ofToken?_eq_some_iff] at named
        subst named
        exact .right (.advance TypeName.token type)
          (.oneOf fun _ => different.symm)

theorem implicitArguments (kind : SubroutineKind) (className : String) :
    Parses next (Pass.implicitArguments kind className) 1 follow := by
  cases kind with
  | method => exact declare _ className .argument SymbolTable.empty
  | «constructor» => exact .pure _
  | «function» => exact .pure _

theorem subroutineBody (className : String) (classTable : SymbolTable)
    (kind : SubroutineKind) (fullName : String) (table : SymbolTable) :
    Parses next
      (Pass.subroutineBody className classTable kind fullName table)
      Grammar.subroutineBody follow := by
  have begins : Leads Grammar.varDec (fun _ => True)
      (fun next => (next.bind (exactly (.keyword .var))).isSome) :=
    .mul (.oneOf fun _ => rfl) .true
  refine .within .subroutineBody ?_
  refine .mul (expectSymbol .leftBrace) fun _ => ?_
  refine .bind (.repeatWhile (fun _ => True) (· ≠ some (.keyword .var))
    begins ?_ ?_ ?_ ?_ table) ?_ fun behind => ?_
  · exact fun _ _ found _ => varDec found
  · exact fun _ other => bind_exactly_eq_none_iff.mpr other
  · exact fun _ _ _ => trivial
  · exact fun _ _ => trivial
  · rw [yields_statements]
    refine .mul (.kstar (leads_statement.imp ?_) ?_) (.oneOf fun _ => rfl)
    · rintro _ selected rfl
      cases selected
    · rintro _ rfl
      simp
  · refine .nothing_bind (.emit _) fun _ => ?_
    refine .bind (statements _ _) (.oneOf fun _ => rfl) fun _ => ?_
    exact .bind_nothing (expectSymbol .rightBrace) fun _ => .pure behind

theorem subroutineDec (className : String) (classTable : SymbolTable)
    (kind : SubroutineKind) :
    Parses (some (some (.keyword kind.keyword)))
      (Pass.subroutineDec className classTable kind) Grammar.subroutineDec
      follow := by
  refine .bind_nothing (.within .subroutineDec ?_) fun finished =>
    .finish finished
  refine .mul (.advance (fun kind : SubroutineKind =>
    .keyword kind.keyword) kind) fun _ => ?_
  refine .mul expectResultType fun _ => ?_
  refine .mul (expectName .subroutine) fun name => ?_
  refine .nothing_bind (implicitArguments kind className)
    fun implicit => ?_
  refine .mul (expectSymbol .leftParen) fun _ => ?_
  refine .bind (parameterList implicit) (.mul (.oneOf fun _ => rfl) .true)
    fun arguments => ?_
  refine .mul (expectSymbol .rightParen) fun _ => ?_
  exact .bind_nothing
    (subroutineBody className classTable kind _ arguments)
    fun table => .pure _

/-! ## Classes -/

theorem classDec :
    Parses next Pass.classDec Grammar.classDec follow := by
  refine .within .classDec ?_
  refine .mul (expectKeyword .classWord) fun _ => ?_
  refine .mul (expectName .className) fun name => ?_
  refine .mul (expectSymbol .leftBrace) fun _ => ?_
  refine .bind (.repeatWhile (fun _ => True)
    (·.bind ClassVariableKind.ofToken? = none) leads_classVarDec ?_ ?_ ?_
    ?_ SymbolTable.empty) ?_ fun table => ?_
  · intro token kind found selected
    rw [ClassVariableKind.ofToken?_eq_some_iff] at selected
    subst selected
    exact classVarDec kind found
  · exact fun _ other => other
  · exact fun _ _ _ => trivial
  · exact fun _ _ => trivial
  · refine .mul (.kstar (leads_subroutineDec.imp ?_) ?_)
      (.oneOf fun _ => rfl)
    · intro next selected
      obtain ⟨kind, chosen⟩ := Option.isSome_iff_exists.mp selected
      obtain ⟨token, rfl, isKind⟩ := Option.bind_eq_some_iff.mp chosen
      rw [SubroutineKind.ofToken?_eq_some_iff] at isKind
      subst isKind
      cases kind <;> rfl
    · rintro _ rfl
      rfl
  · refine .bind (.repeatWhile (fun _ => True)
      (· = some (.symbol .rightBrace)) leads_subroutineDec ?_ ?_ ?_ ?_
      ())
      (.oneOf fun _ => rfl) fun _ => ?_
    · intro token kind _ selected
      rw [SubroutineKind.ofToken?_eq_some_iff] at selected
      subst selected
      exact subroutineDec name table kind
    · rintro _ rfl
      rfl
    · exact fun _ _ _ => trivial
    · exact fun _ _ => trivial
    · exact .bind_nothing (expectSymbol .rightBrace) fun _ => .pure _

/-- The whole pass parses the language of classes in front of the end. -/
theorem compilationUnit :
    Parses next Pass.compilationUnit Grammar.classDec (· = none) := by
  have : Nonempty ClassHead := ⟨⟨"", .empty⟩⟩
  refine .bind_nothing classDec fun head => ?_
  refine .peek fun found _ => ?_
  cases found with
  | none => exact .pure head
  | some token =>
      refine .bind_nothing (.unexpected ⟨[], Language.nil_mem_one⟩ ?_)
        fun _ => .pure head
      refine .one fun next atEnd => ?_
      rw [atEnd]
      exact fun same => by cases same

end Pass.Parses

end JackToVm
