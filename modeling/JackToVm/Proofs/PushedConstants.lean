import JackToVm.Proofs.ClassReading
import JackToVm.Proofs.Layout
import JackToVm.Proofs.Lexing

/-!
# The constants that programs push

In the program of a source text, every constant that is pushed stays within the
limit of the target machine, whether it is a number, the length or a character
of a string, or one of the constants of the language. The one exception is the
number of fields that a constructor asks room for, which nothing keeps below
the limit.
-/

namespace JackToVm

/-! ## Constants in the code of bodies -/

/-- A string of ASCII characters has as many bytes as characters. -/
theorem utf8ByteSize_of_isStringPart {content : List Char}
    (all : content.all Token.isStringPart = true) :
    (String.ofList content).utf8ByteSize = content.length := by
  induction content with
  | nil => rfl
  | cons c others inductionHypothesis =>
      obtain ⟨part, allOthers⟩ :=
        Bool.and_eq_true_iff.mp (List.all_cons.symm.trans all)
      have single : c.utf8Size = 1 := by
        simp only [Token.isStringPart, Bool.and_eq_true,
          decide_eq_true_eq] at part
        have small : c.val ≤ 127 := by
          rw [UInt32.le_iff_toNat_le]
          exact Nat.le_of_lt_succ part.1.1
        simp [Char.utf8Size, small]
      rw [String.ofList_cons, String.utf8ByteSize_append,
        String.utf8ByteSize_singleton, single,
        inductionHypothesis allOthers, List.length_cons]
      exact Nat.add_comm _ _

theorem Fragment.constant_le_of_string {content : String} {value : Nat}
    (written : (Token.string content).IsWritten)
    (inside : .push .constant value ∈ Fragment.string content) :
    value ≤ maxConstant := by
  obtain ⟨all, small⟩ := written
  have bytes := utf8ByteSize_of_isStringPart all
  rw [String.ofList_toList, String.length_toList] at bytes
  simp only [Fragment.string, List.mem_cons, List.mem_flatMap,
    List.not_mem_nil, or_false] at inside
  rcases inside with length | other | ⟨byte, _, character | other⟩
  · injection length with _ same
    rw [same, bytes]
    exact small
  · cases other
  · injection character with _ same
    have bound := byte.toNat_lt
    rw [same]
    unfold maxConstant
    omega
  · cases other

theorem KeywordConstant.constant_le_of_commands (word : KeywordConstant)
    {value : Nat} (inside : .push .constant value ∈ word.commands) :
    value ≤ maxConstant := by
  have small : value ≤ 1 := by
    cases word <;>
      simp only [commands, List.mem_cons, List.not_mem_nil, or_false,
        Command.push.injEq, reduceCtorEq, false_and, true_and] at inside <;>
      omega
  exact Nat.le_trans small (by decide)

section Emitted

variable {scope : Scope} {tokens : List Token} {command : Command}
variable {value : Nat}

/-- The code of a body pushes no constant above the limit if its tokens can be
written. -/
theorem Emitted.constant_le (emitted : Emitted scope tokens command)
    (written : ∀ token ∈ tokens, token.IsWritten)
    (pushes : command = .push .constant value) : value ≤ maxConstant := by
  cases emitted with
  | integer member =>
      injection pushes with _ same
      rw [← same]
      exact written _ member
  | string member inside =>
      rw [pushes] at inside
      exact Fragment.constant_le_of_string (written _ member) inside
  | @constant word _ inside =>
      rw [pushes] at inside
      exact word.constant_le_of_commands inside
  | noResult =>
      injection pushes with _ same
      rw [← same]
      exact Nat.zero_le _
  | receiver => cases pushes
  | @read _ resolved _ =>
      injection pushes with segment _
      cases kind : resolved.kind <;> rw [kind] at segment <;> cases segment
  | write _ => cases pushes
  | load inside =>
      rw [pushes] at inside
      simp [Fragment.load] at inside
  | store inside =>
      rw [pushes] at inside
      simp [Fragment.store] at inside
  | dropped => cases pushes
  | other without =>
      rw [pushes] at without
      cases without

end Emitted

/-! ## Constants in programs -/

/-- Only the prologue of a constructor pushes a constant: the number of
fields. -/
theorem SubroutineKind.push_constant_mem_prologue_iff
    {kind : SubroutineKind} {fields value : Nat} :
    .push .constant value ∈ kind.prologue fields ↔
      kind = .constructor ∧ value = fields := by
  cases kind <;> simp [SubroutineKind.prologue]

namespace ClassDeclaration

variable {declared : ClassDeclaration} {used : NumbersUsed} {value : Nat}

/-- In the program of a class whose tokens can be written, a constant above
the limit is the number of fields in the prologue of a constructor. -/
theorem constant_le_or_eq_of_mem_program
    (written : ∀ token ∈ declared.derivation.yield, token.IsWritten)
    (pushed : .push .constant value ∈ (declared.program used).commands) :
    value ≤ maxConstant ∨
      value = declared.table.count .field ∧
        ∃ subroutine ∈ declared.subroutines,
          subroutine.kind = .constructor := by
  obtain ⟨block, member, inside⟩ := List.mem_flatten.mp pushed
  obtain ⟨subroutine, isDeclared, usedBefore, rfl⟩ :=
    SubroutineDeclaration.mem_codeOfList _ _ member
  rcases List.mem_cons.mp inside with head | behind
  · cases head
  · rcases subroutine.emitted_body declared.name declared.table usedBefore
      behind with inPrologue | emitted
    · obtain ⟨kind, same⟩ :=
        SubroutineKind.push_constant_mem_prologue_iff.mp inPrologue
      exact Or.inr ⟨same, subroutine, isDeclared, kind⟩
    · have within := yield_subset isDeclared
      have small := emitted.constant_le
        (fun token member => written token (within member)) rfl
      exact Or.inl small

/-- A constructor pushes the number of fields. -/
theorem push_count_mem_program {subroutine : SubroutineDeclaration}
    (isDeclared : subroutine ∈ declared.subroutines)
    (kind : subroutine.kind = .constructor) :
    .push .constant (declared.table.count .field) ∈
      (declared.program used).commands := by
  obtain ⟨index, found⟩ := List.getElem?_of_mem isDeclared
  obtain ⟨usedBefore, block⟩ :=
    SubroutineDeclaration.getElem?_codeOfList declared.name declared.table
      declared.subroutines used index found
  obtain ⟨behind, code⟩ :=
    SubroutineDeclaration.exists_code_eq_of_constructor kind declared.name
      declared.table usedBefore
  refine List.mem_flatten.mpr ⟨_, List.mem_of_getElem? block, ?_⟩
  rw [code]
  exact List.mem_cons_of_mem _ List.mem_cons_self

end ClassDeclaration

theorem compileSource_eq_compile {source : String} {labels : LabelCounters}
    {tokens : List Token} (scanned : Token.scan source = .ok tokens) :
    compileSource source labels = compile tokens labels := by
  rw [compileSource, scanned]

/-- A compiled source has been scanned, and its tokens are compiled. -/
theorem exists_scan_of_compileSource {source : String}
    {labels : LabelCounters} {program : Program}
    (compiled : (compileSource source labels).1 = .ok program) :
    ∃ tokens, Token.scan source = .ok tokens ∧
      (compile tokens labels).1 = .ok program := by
  cases scanned : Token.scan source with
  | error cause =>
      rw [compileSource, scanned] at compiled
      cases compiled
  | ok tokens =>
      rw [compileSource_eq_compile scanned] at compiled
      exact ⟨tokens, rfl, compiled⟩

/-- The program of a source pushes a constant above the limit exactly if the
class has a constructor and more fields than the limit. It is then the number
of fields, and every other constant stays within the limit. -/
theorem constant_le_iff_of_compileSource {source : String}
    {labels : LabelCounters} {program : Program}
    (compiled : (compileSource source labels).1 = .ok program) :
    ∃ declared : ClassDeclaration,
      Token.scan source = .ok declared.derivation.yield ∧
      program = declared.program labels.used ∧
      (∀ value, .push .constant value ∈ program.commands →
        value ≤ maxConstant ∨
          value = program.classTable.count .field ∧
            ∃ subroutine ∈ declared.subroutines,
              subroutine.kind = .constructor) ∧
      ((∀ value, .push .constant value ∈ program.commands →
          value ≤ maxConstant) ↔
        ((∃ subroutine ∈ declared.subroutines,
          subroutine.kind = .constructor) →
            program.classTable.count .field ≤ maxConstant)) := by
  obtain ⟨tokens, scanned, compiledTokens⟩ :=
    exists_scan_of_compileSource compiled
  obtain ⟨declared, rfl, _, _, rfl, _⟩ :=
    exists_program_of_compile compiledTokens
  have written := Token.isWritten_of_scan scanned
  have cases : ∀ value,
      .push .constant value ∈ (declared.program labels.used).commands →
        value ≤ maxConstant ∨
          value = declared.table.count .field ∧
            ∃ subroutine ∈ declared.subroutines,
              subroutine.kind = .constructor :=
    fun _ => ClassDeclaration.constant_le_or_eq_of_mem_program written
  refine ⟨declared, scanned, rfl, cases, ?_⟩
  constructor
  · rintro small ⟨subroutine, isDeclared, kind⟩
    exact small _ (ClassDeclaration.push_count_mem_program isDeclared kind)
  · intro few value pushed
    rcases cases value pushed with small | ⟨same, constructed⟩
    · exact small
    · rw [same]
      exact few constructed

/-! ## A class with many fields -/

/-- The name of a field with a number. -/
def numberedField (number : Nat) : String :=
  "x" ++ toString number

theorem numberedField_injective : Function.Injective numberedField := by
  intro first second same
  have noDigit : ∀ c ∈ "x".toList, c.isDigit = false := by
    intro c member
    obtain rfl : c = 'x' := by simpa using member
    rfl
  exact (append_toString_injective noDigit noDigit same).2

theorem isName_numberedField (number : Nat) :
    Token.IsName (numberedField number) := by
  have letters : (numberedField number).toList =
      'x' :: Nat.toDigits 10 number := by
    simp [numberedField, String.toList_append, Nat.toString_eq_repr,
      Nat.repr_eq_ofList_toDigits]
  have parts :
      (Nat.toDigits 10 number).all Token.isNamePart = true := by
    refine List.all_eq_true.mpr ?_
    intro c member
    have digit : c.isDigit = true :=
      Nat.isDigit_of_mem_toDigits (by decide) (by decide) member
    exact Token.isNamePart_iff.mpr (Or.inr digit)
  have free : ∀ reserved : Keyword,
      reserved.word.toList.head? ≠ some 'x' := by
    intro reserved
    cases reserved <;> decide
  refine ⟨?_, ?_, ?_⟩
  · rw [letters]
    rfl
  · rw [letters, List.all_cons, parts]
    rfl
  · cases found : Keyword.ofWord? (numberedField number) with
    | none => rfl
    | some reserved =>
        have word := Keyword.word_of_ofWord? found
        have clash := free reserved
        rw [word, letters] at clash
        exact absurd rfl clash

/-- A class with a constructor, and one field more than `others`. -/
def ClassDeclaration.wide (others : Nat) : ClassDeclaration where
  name := "Wide"
  declarations :=
    [⟨⟨.int, numberedField 0,
      (List.range others).map fun number => numberedField (number + 1)⟩,
        .field⟩]
  subroutines :=
    [{  kind := .constructor
        result := some (.named "Wide")
        name := "new"
        parameters := []
        declarations := []
        body :=
          .cons (.returnValue (.term (.constant .this))) .nil }]

namespace ClassDeclaration

variable {others : Nat}

theorem variableNames_wide :
    (wide others).variableNames =
      (List.range (others + 1)).map numberedField := by
  rw [List.range_succ_eq_map, List.map_cons, List.map_map]
  simp [variableNames, wide, VariableList.names, Function.comp_def]

theorem namesOf_wide (kind : ClassVariableKind) :
    ((wide others).namesOf kind).length =
      if kind = .field then others + 1 else 0 := by
  cases kind <;> simp [namesOf, wide, VariableList.names]

theorem wide_admissible (few : others < maxCount) :
    (wide others).Admissible where
  names_nodup := by
    rw [variableNames_wide]
    exact List.nodup_range.map numberedField_injective
  variables_le := by
    intro kind
    rw [namesOf_wide]
    cases kind with
    | static => exact Nat.zero_le _
    | field => exact few
  subroutines := by
    intro subroutine member
    obtain rfl := List.mem_singleton.mp member
    refine ⟨List.nodup_nil, Nat.zero_le _, Nat.zero_le _, ?_⟩
    exact ⟨trivial, trivial⟩
  height_le := by
    refine (wide others).height_le_iff.mpr ?_
    intro subroutine member
    obtain rfl := List.mem_singleton.mp member
    decide

theorem wide_allowed (labels : LabelCounters) :
    labels.Allow (wide others).count := by
  intro kind
  exact Nat.zero_le _

/-- The tokens before, between and behind the fields. -/
theorem tokens_wide :
    (wide others).tokens =
      [.keyword .classWord, .identifier "Wide", .symbol .leftBrace,
        .keyword .field, .keyword .int] ++
      .identifier (numberedField 0) ::
        ((List.range others).flatMap fun number =>
          [.symbol .comma, .identifier (numberedField (number + 1))]) ++
      [.symbol .semicolon, .keyword .constructor, .identifier "Wide",
        .identifier "new", .symbol .leftParen, .symbol .rightParen,
        .symbol .leftBrace, .keyword .return, .keyword .this,
        .symbol .semicolon, .symbol .rightBrace, .symbol .rightBrace] := by
  have fields : DerivationTree.yieldOfList
      (((List.range others).map fun number =>
        numberedField (number + 1)).flatMap fun name =>
          [.symbol .comma, .name name]) =
      (List.range others).flatMap fun number =>
        [.symbol .comma, .identifier (numberedField (number + 1))] := by
    rw [DerivationTree.yieldOfList_flatMap, List.flatMap_map]
    rfl
  simp only [tokens, derivation, wide, ClassVariableList.derivation,
    VariableList.children, DerivationTree.yield,
    DerivationTree.yieldOfList, DerivationTree.yieldOfList_append,
    List.map_cons, List.map_nil, fields, List.cons_append,
    List.nil_append, List.append_assoc]
  rfl

theorem isWritten_wide :
    ∀ token ∈ (wide others).tokens, token.IsWritten := by
  have field : ∀ number,
      (Token.identifier (numberedField number)).IsWritten :=
    isName_numberedField
  have before : ∀ token ∈ ([.keyword .classWord, .identifier "Wide",
      .symbol .leftBrace, .keyword .field, .keyword .int] : List Token),
      token.IsWritten := by
    decide
  have behind : ∀ token ∈ ([.symbol .semicolon, .keyword .constructor,
      .identifier "Wide", .identifier "new", .symbol .leftParen,
      .symbol .rightParen, .symbol .leftBrace, .keyword .return,
      .keyword .this, .symbol .semicolon, .symbol .rightBrace,
      .symbol .rightBrace] : List Token), token.IsWritten := by
    decide
  intro token member
  rw [tokens_wide, List.mem_append, List.mem_append] at member
  rcases member with (inHead | inFields) | inTail
  · exact before token inHead
  · rcases List.mem_cons.mp inFields with rfl | inOthers
    · exact field 0
    obtain ⟨number, _, place⟩ := List.mem_flatMap.mp inOthers
    rcases List.mem_pair.mp place with rfl | rfl
    · trivial
    · exact field (number + 1)
  · exact behind token inTail

/-- A source text of the class is compiled, and its constructor asks room for
all its fields. -/
theorem exists_compileSource_wide (few : others < maxCount)
    (labels : LabelCounters) :
    ∃ program : Program,
      (compileSource (Token.spelled (wide others).tokens) labels).1 =
        .ok program ∧
      .push .constant (others + 1) ∈ program.commands := by
  have admissible := wide_admissible few
  have written : ∀ token ∈ (wide others).tokens, token.IsWritten :=
    isWritten_wide
  have scanned := Token.scan_spelled written
  have compiled := congrArg Prod.fst
    (compile_of_runPass (runPass_tokens admissible (wide_allowed labels)))
  have counted : (wide others).table.count .field = others + 1 :=
    (admissible.count_table .field).trans (namesOf_wide .field)
  have pushed : .push .constant ((wide others).table.count .field) ∈
      ((wide others).program labels.used).commands :=
    push_count_mem_program List.mem_cons_self rfl
  rw [counted] at pushed
  refine ⟨(wide others).program labels.used, ?_, pushed⟩
  rw [compileSource_eq_compile scanned]
  exact compiled

end ClassDeclaration

/-- A source with one field more than the limit is compiled, although its
constructor pushes a constant above the limit. -/
theorem exists_constant_above_maxConstant :
    ∃ program : Program,
      (compileSource
          (Token.spelled (ClassDeclaration.wide maxConstant).tokens)
          LabelCounters.initial).1 = .ok program ∧
      ¬ ∀ value, .push .constant value ∈ program.commands →
        value ≤ maxConstant := by
  have few : maxConstant < maxCount := by
    decide
  obtain ⟨program, compiled, pushed⟩ :=
    ClassDeclaration.exists_compileSource_wide few LabelCounters.initial
  refine ⟨program, compiled, ?_⟩
  intro small
  exact Nat.not_succ_le_self maxConstant (small _ pushed)

theorem constant_le_iff_of_compileSource_wide :
    ∃ program : Program,
      (compileSource (Token.spelled (ClassDeclaration.wide 2).tokens)
          LabelCounters.initial).1 = .ok program ∧
      ∃ declared : ClassDeclaration,
        Token.scan (Token.spelled (ClassDeclaration.wide 2).tokens) =
            .ok declared.derivation.yield ∧
        program = declared.program LabelCounters.initial.used ∧
        (∀ value, .push .constant value ∈ program.commands →
          value ≤ maxConstant ∨
            value = program.classTable.count .field ∧
              ∃ subroutine ∈ declared.subroutines,
                subroutine.kind = .constructor) ∧
        ((∀ value, .push .constant value ∈ program.commands →
            value ≤ maxConstant) ↔
          ((∃ subroutine ∈ declared.subroutines,
            subroutine.kind = .constructor) →
              program.classTable.count .field ≤ maxConstant)) := by
  obtain ⟨program, compiled, _⟩ :=
    ClassDeclaration.exists_compileSource_wide (by decide : 2 < maxCount)
      LabelCounters.initial
  exact ⟨program, compiled, constant_le_iff_of_compileSource compiled⟩

end JackToVm
