import JackToVm.Proofs.EmittedCommands
import JackToVm.Proofs.PushedConstants
import JackToVm.Vm.Reading
import Std.Data.String.ToNat

/-!
# The text of commands can be read

A command whose name is one word is read back from its line. Every name in the
code of a scanned source is made of names and types of the source, or it is
the name of a label or of a library function; so it is one word, and the text
of a compiled program is read back as its commands.
-/

namespace JackToVm

open Text (IsWord Unbroken)
open DerivationTree (yieldOfList yieldOfList_append yield_subset_of_mem
  yieldOfList_subset_of_mem)

/-! ## Lines of commands -/

namespace Command

variable {command : Command} {commands : List Command}

theorem text_eq_intercalate (command : Command) :
    command.text = " ".intercalate command.words := by
  cases command <;>
    simp [text, words, String.intercalate_cons_cons, String.append_assoc]

theorem isWord_of_mem_words (readable : command.Readable) :
    ∀ word ∈ command.words, IsWord word := by
  have keyword :
      ∀ word ∈ ["push", "pop", "call", "function", "goto", "if-goto", "label",
        "return"], IsWord word := by
    decide
  simp only [List.forall_mem_cons] at keyword
  cases command <;> simp_all [words]

theorem words_ne_nil (command : Command) : command.words ≠ [] := by
  cases command <;> simp [words]

theorem ofWords?_words (command : Command) :
    ofWords? command.words = some command := by
  cases command with
  | operation op => cases op <;> rfl
  | _ => simp [words, ofWords?, Nat.toNat?_repr]

theorem ofLine?_text (readable : command.Readable) :
    ofLine? command.text = some command := by
  rw [ofLine?, text_eq_intercalate,
    Text.words_intercalate (isWord_of_mem_words readable) command.words_ne_nil,
    ofWords?_words]

theorem unbroken_text (readable : command.Readable) :
    Unbroken command.text := by
  rw [text_eq_intercalate]
  exact Text.unbroken_intercalate fun word member =>
    (isWord_of_mem_words readable word member).1

theorem lines_textOfList (readable : ∀ command ∈ commands, command.Readable)
    (notEmpty : commands ≠ []) :
    Text.lines (textOfList commands) = commands.map text := by
  have unbroken : ∀ line ∈ commands.map text, Unbroken line := by
    intro line member
    obtain ⟨command, within, rfl⟩ := List.mem_map.mp member
    exact unbroken_text (readable command within)
  exact Text.lines_intercalate unbroken (by simpa using notEmpty)

theorem mapM_ofLine?_text (readable : ∀ command ∈ commands, command.Readable) :
    (commands.map text).mapM ofLine? = some commands := by
  induction commands with
  | nil => rfl
  | cons command commands inductionHypothesis =>
      have inside := List.forall_mem_cons.mp readable
      have first := ofLine?_text inside.1
      have others := inductionHypothesis inside.2
      simp [first, others]

/-- A text with commands is not the empty text: that is one empty line, which
is no command. -/
theorem textOfList_ne_empty (readable : ∀ command ∈ commands, command.Readable)
    (notEmpty : commands ≠ []) : textOfList commands ≠ "" := by
  intro empty
  have read := mapM_ofLine?_text readable
  rw [← lines_textOfList readable notEmpty, empty] at read
  have nothing : (Text.lines "").mapM ofLine? = none := by
    decide +kernel
  rw [nothing] at read
  cases read

/-- Readable commands are read back from their text. -/
theorem listOfText?_textOfList
    (readable : ∀ command ∈ commands, command.Readable) :
    listOfText? (textOfList commands) = some commands := by
  by_cases empty : commands = []
  · rw [empty]
    rfl
  · rw [listOfText?, if_neg (textOfList_ne_empty readable empty),
      lines_textOfList readable empty, mapM_ofLine?_text readable]

end Command

/-! ## Names of a source -/

/-- Whether all tokens of some trees can stand in a source. -/
def AllWritten (trees : List DerivationTree) : Prop :=
  ∀ token ∈ yieldOfList trees, token.IsWritten

/-- A name begins and goes on with characters of which none separates words. -/
theorem Token.isWord_of_isName {name : String} (isName : Token.IsName name) :
    IsWord name :=
  Text.isWord_of_all isName.2.1 rfl rfl

section AllWritten

variable {trees others inner : List DerivationTree}
variable {tree : DerivationTree}

theorem allWritten_append_iff :
    AllWritten (trees ++ others) ↔ AllWritten trees ∧ AllWritten others := by
  rw [AllWritten, yieldOfList_append, List.forall_mem_append]
  rfl

namespace AllWritten

theorem of_mem (written : AllWritten trees) (member : tree ∈ trees) :
    ∀ token ∈ tree.yield, token.IsWritten :=
  fun token within => written token (yield_subset_of_mem member within)

/-- What stands inside a node of some trees. -/
theorem inside (written : AllWritten trees) (node : Node)
    (member : .branch node inner ∈ trees) : AllWritten inner :=
  written.of_mem member

theorem head (written : AllWritten (tree :: trees)) : AllWritten [tree] := by
  rw [AllWritten, yieldOfList, yieldOfList, List.append_nil]
  exact written.of_mem List.mem_cons_self

theorem tail (written : AllWritten (tree :: trees)) : AllWritten trees :=
  fun token member => written token (List.mem_append_right _ member)

theorem isWord_of_name {name : String} (written : AllWritten trees)
    (member : .name name ∈ trees) : IsWord name :=
  Token.isWord_of_isName
    (written.of_mem member (.identifier name) List.mem_cons_self)

end AllWritten

end AllWritten

theorem TypeName.isWord_word {type : TypeName}
    (written : type.token.IsWritten) : IsWord type.word := by
  cases type with
  | named className => exact Token.isWord_of_isName written
  | int => decide
  | char => decide
  | boolean => decide

theorem isWord_qualifiedName {owner name : String} (ownerWord : IsWord owner)
    (nameWord : IsWord name) : IsWord (qualifiedName owner name) := by
  have dot : IsWord "." := by decide
  simp [qualifiedName, ownerWord, nameWord, dot]

theorem LabelKind.isWord_pair (kind : LabelKind) (number : Nat) :
    IsWord (kind.pair number).start ∧ IsWord (kind.pair number).finish := by
  have names : IsWord kind.startName ∧ IsWord kind.endName := by
    cases kind <;> decide
  simp [LabelKind.pair, names]

/-! ## Types of variables -/

namespace SymbolTable

theorem mem_entries_add {table : SymbolTable} {one : VariableDeclaration}
    {entry : String × Variable} (member : entry ∈ (table.add one).entries) :
    entry ∈ table.entries ∨ entry.2.type = one.type.word := by
  unfold add insert at member
  split at member
  next existing present => exact Or.inl member
  next present =>
    split at member
    next exhausted => exact Or.inl member
    next index counter available =>
      rcases Array.mem_push.mp member with before | rfl
      · exact Or.inl before
      · exact Or.inr rfl

theorem mem_entries_addAll {declared : List VariableDeclaration}
    {table : SymbolTable} {entry : String × Variable}
    (member : entry ∈ (table.addAll declared).entries) :
    entry ∈ table.entries ∨
      ∃ one ∈ declared, entry.2.type = one.type.word := by
  induction declared generalizing table with
  | nil => exact Or.inl member
  | cons first others inductionHypothesis =>
      rcases inductionHypothesis member with before | behind
      · rcases mem_entries_add before with older | same
        · exact Or.inl older
        · exact Or.inr ⟨first, List.mem_cons_self, same⟩
      · obtain ⟨one, within, same⟩ := behind
        exact Or.inr ⟨one, List.mem_cons_of_mem first within, same⟩

/-- A table answers with types of its declarations only. -/
theorem exists_declared_of_lookup? {declared : List VariableDeclaration}
    {name : String} {found : Variable}
    (answer : (empty.addAll declared).lookup? name = some found) :
    ∃ one ∈ declared, found.type = one.type.word := by
  rw [lookup?_eq_find?, Option.map_eq_some_iff] at answer
  obtain ⟨entry, search, rfl⟩ := answer
  have member := Array.mem_of_find?_eq_some search
  rcases mem_entries_addAll member with inEmpty | fromDeclared
  · simp [empty] at inEmpty
  · exact fromDeclared

end SymbolTable

/-- Whether all that the names of a scope are completed with is one word: the
name of the class and the types of the variables. -/
structure Scope.Readable (scope : Scope) : Prop where
  className : IsWord scope.className
  type : ∀ {name : String} {found : Variable},
    scope.resolve? name = some found → IsWord found.type

theorem VariableList.isWord_type {list : VariableList} {kind : VariableKind}
    {one : VariableDeclaration} (written : AllWritten list.children)
    (member : one ∈ list.entries kind) : IsWord one.type.word := by
  obtain ⟨name, _, rfl⟩ := List.mem_map.mp member
  exact TypeName.isWord_word
    (written list.type.token List.mem_cons_self)

theorem Parameter.isWord_type {parameters : List Parameter}
    {parameter : Parameter}
    (written : AllWritten (Parameter.childrenOfList parameters))
    (member : parameter ∈ parameters) : IsWord parameter.type.word := by
  have derived : parameter.type.derivation ∈ childrenOfList parameters := by
    cases parameters with
    | nil => cases member
    | cons first others =>
        rcases List.mem_cons.mp member with rfl | behind
        · simp [childrenOfList, children]
        · simp only [childrenOfList, List.mem_append, List.mem_flatMap]
          exact Or.inr ⟨parameter, behind, by simp [children]⟩
  exact TypeName.isWord_word
    (written.of_mem derived parameter.type.token List.mem_cons_self)

theorem ClassDeclaration.isWord_type {declared : ClassDeclaration}
    {name : String} {found : Variable}
    (written : AllWritten [declared.derivation])
    (answer : declared.table.lookup? name = some found) :
    IsWord found.type := by
  obtain ⟨one, member, same⟩ := SymbolTable.exists_declared_of_lookup? answer
  obtain ⟨list, within, entry⟩ := List.mem_flatMap.mp member
  have inside := written.inside _ List.mem_cons_self
  have declarations :
      AllWritten (declared.declarations.map ClassVariableList.derivation) := by
    have behindHead := (allWritten_append_iff.mp inside).1
    exact (allWritten_append_iff.mp
      (allWritten_append_iff.mp behindHead).1).2
  have listWritten := declarations.inside .classVarDec
    (List.mem_map_of_mem within)
  rw [same]
  exact list.isWord_type listWritten.tail entry

/-- The tokens in the body of a subroutine are among its own. -/
theorem SubroutineDeclaration.allWritten_body
    {subroutine : SubroutineDeclaration}
    (written : AllWritten [subroutine.derivation]) :
    AllWritten (subroutine.declarations.map VariableList.derivation) ∧
      AllWritten subroutine.body.children := by
  have inside := written.inside _ List.mem_cons_self
  have member : subroutine.bodyDerivation ∈
      [.keyword subroutine.kind.keyword, subroutine.resultDerivation,
        .name subroutine.name, .symbol .leftParen,
        .branch .parameterList
          (Parameter.childrenOfList subroutine.parameters),
        .symbol .rightParen, subroutine.bodyDerivation] := by
    simp
  have body := allWritten_append_iff.mp (inside.inside _ member)
  exact ⟨body.1.tail, body.2.inside _ List.mem_cons_self⟩

theorem SubroutineDeclaration.isWord_type
    {subroutine : SubroutineDeclaration} {className name : String}
    {found : Variable} (written : AllWritten [subroutine.derivation])
    (classWord : IsWord className)
    (answer : (subroutine.table className).lookup? name = some found) :
    IsWord found.type := by
  obtain ⟨one, member, same⟩ := SymbolTable.exists_declared_of_lookup? answer
  have inside := written.inside _ List.mem_cons_self
  rw [same]
  simp only [entries, List.mem_append, List.mem_map, List.mem_flatMap]
    at member
  rcases member with (implicit | parameter) | localVariable
  · cases kind : subroutine.kind with
    | method =>
        rw [kind] at implicit
        obtain rfl := List.mem_singleton.mp implicit
        exact classWord
    | constructor =>
        rw [kind] at implicit
        cases implicit
    | function =>
        rw [kind] at implicit
        cases implicit
  · obtain ⟨parameter, within, rfl⟩ := parameter
    exact Parameter.isWord_type
      (inside.inside .parameterList (by simp)) within
  · obtain ⟨list, within, entry⟩ := localVariable
    have listWritten := (allWritten_body written).1.inside .varDec
      (List.mem_map_of_mem within)
    exact list.isWord_type listWritten.tail entry

/-- The scope of a subroutine takes its names and types from the class. -/
theorem ClassDeclaration.readable_scope {declared : ClassDeclaration}
    {subroutine : SubroutineDeclaration}
    (written : AllWritten [declared.derivation])
    (subroutineWritten : AllWritten [subroutine.derivation]) :
    (subroutine.scope declared.name declared.table).Readable := by
  have inside := written.inside _ List.mem_cons_self
  have classWord : IsWord declared.name := inside.isWord_of_name (by simp)
  refine ⟨classWord, ?_⟩
  intro name found resolved
  rcases Option.or_eq_some_iff.mp resolved with own | ⟨_, ofClass⟩
  · exact SubroutineDeclaration.isWord_type subroutineWritten classWord own
  · exact declared.isWord_type written ofClass

/-! ## Code -/

/-- Whether every one of some commands is readable. -/
def AllReadable (commands : List Command) : Prop :=
  ∀ command ∈ commands, command.Readable

section AllReadable

variable {first second commands : List Command} {command : Command}

@[simp]
theorem allReadable_nil : AllReadable [] := by
  simp [AllReadable]

@[simp]
theorem allReadable_cons_iff :
    AllReadable (command :: commands) ↔
      command.Readable ∧ AllReadable commands :=
  List.forall_mem_cons

@[simp]
theorem allReadable_append_iff :
    AllReadable (first ++ second) ↔
      AllReadable first ∧ AllReadable second :=
  List.forall_mem_append

end AllReadable

theorem Fragment.allReadable_string (content : String) :
    AllReadable (Fragment.string content) := by
  have new : IsWord Fragment.stringNew := by decide
  have append : IsWord Fragment.stringAppend := by decide
  intro command member
  simp only [Fragment.string, List.mem_cons, List.mem_flatMap,
    List.not_mem_nil, or_false] at member
  rcases member with rfl | rfl | ⟨byte, _, rfl | rfl⟩
  · exact trivial
  · exact new
  · exact trivial
  · exact append

theorem BinaryOperator.readable_command (operator : BinaryOperator) :
    operator.command.Readable := by
  have multiply : IsWord Fragment.multiply := by decide
  have divide : IsWord Fragment.divide := by decide
  cases operator with
  | multiply => exact multiply
  | divide => exact divide
  | _ => exact trivial

theorem UnaryOperator.readable_command (operator : UnaryOperator) :
    operator.command.Readable := by
  cases operator <;> trivial

theorem KeywordConstant.allReadable_commands (word : KeywordConstant) :
    AllReadable word.commands := by
  cases word <;> simp [KeywordConstant.commands]

theorem SubroutineKind.allReadable_prologue (kind : SubroutineKind)
    (fields : Nat) : AllReadable (kind.prologue fields) := by
  have alloc : IsWord Fragment.memoryAlloc := by decide
  cases kind <;> simp [SubroutineKind.prologue, alloc]

theorem Scope.allReadable_read (scope : Scope) (name : String) :
    AllReadable (scope.read name) := by
  unfold Scope.read
  cases scope.resolve? name <;> simp [Variable.push]

theorem Scope.allReadable_write (scope : Scope) (name : String) :
    AllReadable (scope.write name) := by
  unfold Scope.write
  cases scope.resolve? name <;> simp [Variable.pop]

/-! ## Expressions -/

section Expressions

variable {scope : Scope}

mutual

theorem Expression.allReadable_code (readable : scope.Readable) :
    ∀ whole : Expression, AllWritten whole.children →
      AllReadable (whole.code scope)
  | .term only, written =>
      only.allReadable_code readable (written.inside _ List.mem_cons_self)
  | .binary left operator right, written => by
      have inside := allWritten_append_iff.mp written
      have first := left.allReadable_code readable inside.1
      have second := right.allReadable_code readable
        (inside.2.inside .term (by simp))
      simp [Expression.code, first, second, operator.readable_command]

theorem Term.allReadable_code (readable : scope.Readable) :
    ∀ operand : Term, AllWritten operand.children →
      AllReadable (operand.code scope)
  | .integer value, _ => by simp [Term.code]
  | .string content, _ => Fragment.allReadable_string content
  | .constant word, _ => word.allReadable_commands
  | .variable name, _ => scope.allReadable_read name
  | .element array index, written => by
      have offset := index.allReadable_code readable
        (written.inside .expression (by simp [Term.children]))
      simp [Term.code, offset, scope.allReadable_read array, Fragment.load]
  | .call target, written => target.allReadable_code readable written
  | .group inner, written =>
      inner.allReadable_code readable
        (written.inside .expression (by simp [Term.children]))
  | .unary operator operand, written => by
      have value := operand.allReadable_code readable
        (written.inside .term (by simp [Term.children]))
      simp [Term.code, value, operator.readable_command]

theorem SubroutineCall.allReadable_code (readable : scope.Readable) :
    ∀ target : SubroutineCall, AllWritten target.children →
      AllReadable (target.code scope)
  | .own name arguments, written => by
      have values := arguments.allReadable_code readable
        (written.inside .expressionList
          (by simp [SubroutineCall.children]))
      have nameWord : IsWord name :=
        written.isWord_of_name (by simp [SubroutineCall.children])
      have full := isWord_qualifiedName readable.className nameWord
      simp [SubroutineCall.code, values, full]
  | .through owner name arguments, written => by
      have values := arguments.allReadable_code readable
        (written.inside .expressionList
          (by simp [SubroutineCall.children]))
      have ownerWord : IsWord owner :=
        written.isWord_of_name (by simp [SubroutineCall.children])
      have nameWord : IsWord name :=
        written.isWord_of_name (by simp [SubroutineCall.children])
      unfold SubroutineCall.code
      cases resolved : scope.resolve? owner with
      | some receiver =>
          have full := isWord_qualifiedName (readable.type resolved) nameWord
          simp [values, full, Variable.push]
      | none =>
          have full := isWord_qualifiedName ownerWord nameWord
          simp [values, full]

theorem ExpressionList.allReadable_code (readable : scope.Readable) :
    ∀ arguments : ExpressionList, AllWritten arguments.children →
      AllReadable (arguments.code scope)
  | .nil, _ => allReadable_nil
  | .cons first others, written => by
      have value := first.allReadable_code readable
        (written.inside .expression
          (by simp [ExpressionList.children]))
      have values := others.allReadable_continued readable written.tail
      simp [ExpressionList.code, value, values]

theorem ExpressionList.allReadable_continued (readable : scope.Readable) :
    ∀ arguments : ExpressionList, AllWritten arguments.continued →
      AllReadable (arguments.code scope)
  | .nil, _ => allReadable_nil
  | .cons first others, written => by
      have value := first.allReadable_code readable
        (written.inside .expression
          (by simp [ExpressionList.continued]))
      have values := others.allReadable_continued readable written.tail.tail
      simp [ExpressionList.code, value, values]

end

end Expressions

/-! ## Statements -/

section Statements

variable {scope : Scope}

mutual

theorem Statement.allReadable_code (readable : scope.Readable) :
    ∀ (one : Statement) (used : NumbersUsed), AllWritten [one.derivation] →
      AllReadable (one.code scope used)
  | .letVariable target value, used, written => by
      have inside := written.inside _ List.mem_cons_self
      have assigned := value.allReadable_code readable
        (inside.inside .expression
          (by simp [Expression.derivation]))
      simp [Statement.code, assigned, scope.allReadable_write target]
  | .letElement array index value, used, written => by
      have inside := written.inside _ List.mem_cons_self
      have offset := index.allReadable_code readable
        (inside.inside .expression
          (by simp [Expression.derivation]))
      have assigned := value.allReadable_code readable
        (inside.inside .expression
          (by simp [Expression.derivation]))
      simp [Statement.code, offset, assigned, scope.allReadable_read array,
        Fragment.store]
  | .ifThen condition body, used, written => by
      have inside := written.inside _ List.mem_cons_self
      have tested := condition.allReadable_code readable
        (inside.inside .expression
          (by simp [Expression.derivation]))
      have inner := body.allReadable_code readable (used.next .if)
        (inside.inside .statements (by simp))
      have labels := LabelKind.if.isWord_pair (used .if)
      simp [Statement.code, tested, inner, labels]
  | .ifElse condition body otherwise, used, written => by
      have inside := written.inside _ List.mem_cons_self
      have tested := condition.allReadable_code readable
        (inside.inside .expression
          (by simp [Expression.derivation]))
      have inner := body.allReadable_code readable (used.next .if)
        (inside.inside .statements (by simp))
      have innerOtherwise :=
        otherwise.allReadable_code readable ((used.next .if).behind body)
          (inside.inside .statements (by simp))
      have labels := LabelKind.if.isWord_pair (used .if)
      simp [Statement.code, tested, inner, innerOtherwise, labels]
  | .whileLoop condition body, used, written => by
      have inside := written.inside _ List.mem_cons_self
      have tested := condition.allReadable_code readable
        (inside.inside .expression
          (by simp [Expression.derivation]))
      have inner := body.allReadable_code readable (used.next .while)
        (inside.inside .statements (by simp))
      have labels := LabelKind.while.isWord_pair (used .while)
      simp [Statement.code, tested, inner, labels]
  | .doCall target, used, written => by
      have inside := written.inside _ List.mem_cons_self
      have called := target.allReadable_code readable
        (allWritten_append_iff.mp inside.tail).1
      simp [Statement.code, called]
  | .returnNothing, _, _ => by simp [Statement.code]
  | .returnValue value, used, written => by
      have inside := written.inside _ List.mem_cons_self
      have result := value.allReadable_code readable
        (inside.inside .expression
          (by simp [Expression.derivation]))
      simp [Statement.code, result]

theorem Statements.allReadable_code (readable : scope.Readable) :
    ∀ (body : Statements) (used : NumbersUsed), AllWritten body.children →
      AllReadable (body.code scope used)
  | .nil, _, _ => allReadable_nil
  | .cons first others, used, written => by
      have one := first.allReadable_code readable used (written.head)
      have rest := others.allReadable_code readable
        (fun kind => used kind + first.count kind) written.tail
      simp [Statements.code, one, rest]

end

end Statements

/-! ## Programs -/

theorem SubroutineDeclaration.allReadable_code
    {subroutine : SubroutineDeclaration} {className : String}
    {classTable : SymbolTable}
    (readable : (subroutine.scope className classTable).Readable)
    (written : AllWritten [subroutine.derivation]) (used : NumbersUsed) :
    AllReadable (subroutine.code className classTable used) := by
  have inside := written.inside _ List.mem_cons_self
  have name : IsWord subroutine.name := inside.isWord_of_name (by simp)
  have full := isWord_qualifiedName readable.className name
  have statements := subroutine.body.allReadable_code readable used
    (allWritten_body written).2
  have prologue := subroutine.kind.allReadable_prologue
    (classTable.count .field)
  rw [code, opening, allReadable_append_iff, allReadable_cons_iff]
  exact ⟨⟨full, prologue⟩, statements⟩

theorem SubroutineDeclaration.allReadable_codeOfList {className : String}
    {classTable : SymbolTable} {subroutines : List SubroutineDeclaration}
    (readable : ∀ subroutine ∈ subroutines,
      (subroutine.scope className classTable).Readable)
    (written : ∀ subroutine ∈ subroutines,
      AllWritten [subroutine.derivation]) (used : NumbersUsed) :
    AllReadable (codeOfList className classTable subroutines used).flatten := by
  induction subroutines generalizing used with
  | nil => exact allReadable_nil
  | cons first others inductionHypothesis =>
      rw [List.forall_mem_cons] at readable written
      rw [codeOfList, List.flatten_cons, allReadable_append_iff]
      exact ⟨first.allReadable_code readable.1 written.1 used,
        inductionHypothesis readable.2 written.2 _⟩

theorem ClassDeclaration.allReadable_program {declared : ClassDeclaration}
    (written : AllWritten [declared.derivation]) (used : NumbersUsed) :
    AllReadable (declared.program used).commands := by
  have subroutineWritten : ∀ subroutine ∈ declared.subroutines,
      AllWritten [subroutine.derivation] := by
    intro subroutine member token within
    rw [yieldOfList, yieldOfList, List.append_nil] at within
    exact written.of_mem List.mem_cons_self token
      (yield_subset member within)
  have readable : ∀ subroutine ∈ declared.subroutines,
      (subroutine.scope declared.name declared.table).Readable :=
    fun subroutine member =>
      readable_scope written (subroutineWritten subroutine member)
  exact SubroutineDeclaration.allReadable_codeOfList readable
    subroutineWritten used

/-- Every command of a compiled source is readable. -/
theorem allReadable_of_compileSource {source : String}
    {labels : LabelCounters} {program : Program}
    (compiled : (compileSource source labels).1 = .ok program) :
    AllReadable program.commands := by
  obtain ⟨tokens, scanned, compiledTokens⟩ :=
    exists_scan_of_compileSource compiled
  obtain ⟨declared, rfl, _, _, rfl, _⟩ :=
    exists_program_of_compile compiledTokens
  apply ClassDeclaration.allReadable_program
  rw [AllWritten, yieldOfList, yieldOfList, List.append_nil]
  exact Token.isWritten_of_scan scanned

/-- The text of a compiled program is read back as its commands. So programs
with the same text have the same commands, and the text has one line for each
command; without commands it is empty. -/
theorem listOfText?_text_of_compileSource {source : String}
    {labels : LabelCounters} {program : Program}
    (compiled : (compileSource source labels).1 = .ok program) :
    Command.listOfText? program.text = some program.commands ∧
      (∀ (other : String) (otherLabels : LabelCounters)
        (otherProgram : Program),
        (compileSource other otherLabels).1 = .ok otherProgram →
          program.text = otherProgram.text →
            program.commands = otherProgram.commands) ∧
      (program.commands ≠ [] →
        Text.lines program.text = program.commands.map Command.text) ∧
      (program.commands = [] ↔ program.text = "") := by
  have readable := allReadable_of_compileSource compiled
  have read := Command.listOfText?_textOfList readable
  refine ⟨read, ?_, Command.lines_textOfList readable, ?_, ?_⟩
  · intro other otherLabels otherProgram otherCompiled sameText
    have otherRead := Command.listOfText?_textOfList
      (allReadable_of_compileSource otherCompiled)
    rw [Program.text] at sameText
    rw [sameText] at read
    exact Option.some.inj (read.symm.trans otherRead)
  · intro empty
    rw [Program.text, empty]
    rfl
  · intro empty
    by_contra notEmpty
    exact Command.textOfList_ne_empty readable notEmpty empty

theorem listOfText?_text_of_compileSource_countdown :
    let source := Token.spelled ClassDeclaration.countdown.tokens
    let program :=
      ClassDeclaration.countdown.program LabelCounters.initial.used
    (compileSource source LabelCounters.initial).1 = .ok program ∧
      Command.listOfText? program.text = some program.commands ∧
      program.commands ≠ [] ∧
      Text.lines program.text = program.commands.map Command.text := by
  intro source program
  have scanned := Token.scan_spelled ClassDeclaration.countdown_written
  have tokensCompiled := compile_of_runPass (runPass_tokens
    ClassDeclaration.countdown_admissible ClassDeclaration.countdown_allowed)
  have compiled :
      (compileSource source LabelCounters.initial).1 = .ok program := by
    rw [compileSource_eq_compile scanned]
    exact congrArg Prod.fst tokensCompiled
  have notEmpty : program.commands ≠ [] := List.cons_ne_nil _ _
  obtain ⟨read, _, oneLineEach, _⟩ :=
    listOfText?_text_of_compileSource compiled
  exact ⟨compiled, read, notEmpty, oneLineEach notEmpty⟩

end JackToVm
