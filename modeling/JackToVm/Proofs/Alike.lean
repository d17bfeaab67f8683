import JackToVm.Compilation.Run
import JackToVm.Proofs.Blocks
import JackToVm.Proofs.Steps
import JackToVm.Vm.ControlFlow

/-!
# Passes that differ in labels only

The steps of a pass never depend on the label numbers that they are given: with
other numbers they read the same tokens and write the same commands with other
labels. `Alike` says so of two steps, by the way in which they are composed of
small ones, and every procedure of the compiler is alike to itself whatever
numbers it is given. So what holds of the small steps and of their composition
holds of the whole pass.
-/

namespace JackToVm

/-- Two labels have the same place in two pairs that are related. -/
inductive LabelPair.SamePlace (related : LabelPair → LabelPair → Prop) :
    String → String → Prop where
  | start {first second : LabelPair} :
      related first second → SamePlace related first.start second.start
  | finish {first second : LabelPair} :
      related first second → SamePlace related first.finish second.finish

/-- Two commands are the same but for their labels, which have the same place
in related pairs. -/
inductive Command.Alike (related : LabelPair → LabelPair → Prop) :
    Command → Command → Prop where
  | same {command : Command} :
      command.target? = none → command.label? = none →
      Alike related command command
  | goto {first second : String} :
      LabelPair.SamePlace related first second →
      Alike related (.goto first) (.goto second)
  | ifGoto {first second : String} :
      LabelPair.SamePlace related first second →
      Alike related (.ifGoto first) (.ifGoto second)
  | label {first second : String} :
      LabelPair.SamePlace related first second →
      Alike related (.label first) (.label second)

/-- A cause that a rule of the language or a limit gives, whatever token comes
next and whatever label numbers are left. -/
def CompileError.IsRule : CompileError → Prop
  | .unresolved _ | .redeclared _ _ => True
  | .limit (.labels _) => False
  | .limit _ => True
  | .lexical _ | .unexpected _ _ => False

theorem LabelPair.SamePlace.symm {related : LabelPair → LabelPair → Prop}
    {first second : String} (same : SamePlace related first second) :
    SamePlace (flip related) second first := by
  cases same with
  | start pairs => exact .start pairs
  | finish pairs => exact .finish pairs

theorem Command.Alike.symm {related : LabelPair → LabelPair → Prop}
    {first second : Command} (alike : Alike related first second) :
    Alike (flip related) second first := by
  cases alike with
  | same noTarget noLabel => exact .same noTarget noLabel
  | goto place => exact .goto place.symm
  | ifGoto place => exact .ifGoto place.symm
  | label place => exact .label place.symm

theorem SymbolTable.isRule_of_insert {table : SymbolTable}
    {name type : String} {kind : VariableKind} {cause : CompileError}
    (refused : (table.insert name type kind).1 = .error cause) :
    cause.IsRule := by
  unfold SymbolTable.insert at refused
  split at refused
  next existing present =>
    obtain rfl := Except.error.inj refused
    trivial
  next fresh =>
    split at refused
    next exhausted =>
      obtain rfl := Except.error.inj refused
      trivial
    next index counter available => cases refused

namespace Pass

/-- Two steps do the same but for the labels that they are given and write.
If `next` is known, it is the token that comes next. -/
inductive Alike (related : LabelPair → LabelPair → Prop) :
    {α : Type} → Option (Option Token) → Pass α → Pass α → Prop where
  | pure {α : Type} {next : Option (Option Token)} (value : α) :
      Alike related next (pure value) (pure value)
  | bind {α β : Type} {next : Option (Option Token)} {first second : Pass α}
      {later other : α → Pass β} :
      Alike related next first second →
      (∀ value, Alike related none (later value) (other value)) →
      Alike related next (first >>= later) (second >>= other)
  | peek {β : Type} {next : Option (Option Token)}
      {later other : Option Token → Pass β} :
      (∀ found, Alike related (some found) (later found) (other found)) →
      Alike related next (peek >>= later) (peek >>= other)
  | advance {token : Token} :
      LabelKind.ofToken? token = none →
      Alike related (some (some token)) advance advance
  /-- A loop or branch takes its number as soon as its keyword is read. -/
  | numbered {β : Type} {next : Option (Option Token)} (kind : LabelKind)
      {later other : LabelPair → Pass β} :
      (∀ labels otherLabels, related labels otherLabels →
        Alike related none (later labels) (other otherLabels)) →
      Alike related next
        (expectKeyword kind.keyword >>= fun _ => takeLabels kind >>= later)
        (expectKeyword kind.keyword >>= fun _ => takeLabels kind >>= other)
  | emit {next : Option (Option Token)} {commands others : List Command} :
      List.Forall₂ (Command.Alike related) commands others →
      Alike related next (emit commands) (emit others)
  | unexpected {α : Type} {next : Option (Option Token)}
      (expected : Expectation) :
      Alike related next (unexpected expected : Pass α) (unexpected expected)
  | refuse {α : Type} {next : Option (Option Token)} {cause : CompileError} :
      cause.IsRule →
      Alike related next (throw cause : Pass α) (throw cause)
  | within {α : Type} {next : Option (Option Token)} {body other : Pass α}
      (node : Node) :
      Alike related next body other →
      Alike related next (within node body) (within node other)
  | repeatWhile {α β : Type} {next : Option (Option Token)}
      {wanted : Token → Option α} {body other : α → β → Pass β}
      (initial : β) :
      (∀ token choice result, wanted token = some choice →
        Alike related (some (some token)) (body choice result)
          (other choice result)) →
      Alike related next (repeatWhile wanted body initial)
        (repeatWhile wanted other initial)
  | finish {next : Option (Option Token)} (symbols : String × SymbolTable) :
      Alike related next
        (modify fun state =>
          { state with subroutines := state.subroutines.push symbols })
        (modify fun state =>
          { state with subroutines := state.subroutines.push symbols })

namespace Alike

variable {related : LabelPair → LabelPair → Prop}
variable {α β : Type} {next : Option (Option Token)}

theorem symm {first second : Pass α}
    (alike : Alike related next first second) :
    Alike (flip related) next second first := by
  induction alike with
  | pure value => exact .pure value
  | bind _ _ parts partsLater => exact .bind parts partsLater
  | peek _ parts => exact .peek parts
  | advance unnumbered => exact .advance unnumbered
  | numbered kind _ parts =>
      exact .numbered kind fun labels otherLabels pairs =>
        parts otherLabels labels pairs
  | emit commands =>
      exact .emit (List.Forall₂.flip (commands.imp fun _ _ => .symm))
  | unexpected expected => exact .unexpected expected
  | refuse rule => exact .refuse rule
  | within node _ parts => exact .within node parts
  | repeatWhile initial _ parts => exact .repeatWhile initial parts
  | finish symbols => exact .finish symbols

/-! ## Small steps -/

theorem commands_same {commands : List Command}
    (moves : commands.all Command.movesWords) :
    List.Forall₂ (Command.Alike related) commands commands := by
  refine List.forall₂_same.mpr ?_
  intro command member
  have movesOne := List.all_eq_true.mp moves command member
  cases command with
  | push segment index => exact .same rfl rfl
  | pop segment index => exact .same rfl rfl
  | call name count => exact .same rfl rfl
  | operation op => exact .same rfl rfl
  | «function» name count => cases movesOne
  | goto place => cases movesOne
  | ifGoto place => cases movesOne
  | label place => cases movesOne
  | «return» => cases movesOne

theorem emit_same {commands : List Command}
    (moves : commands.all Command.movesWords) :
    Alike related next (Pass.emit commands) (Pass.emit commands) :=
  .emit (commands_same moves)

/-- The branch for a token that comes next, and the one for any other. -/
theorem ite_next {token : Token} {accepted refused other left : Pass α}
    (isNext : Alike related (some (some token)) accepted other)
    (isNot : ∀ found, Alike related (some found) refused left) :
    Alike related next
      (do if ← nextIs token then accepted else refused)
      (do if ← nextIs token then other else left) := by
  have looked : ∀ later : Bool → Pass α,
      (nextIs token >>= later : Pass α) =
        (Pass.peek >>= fun found => later (found == some token)) :=
    fun _ => rfl
  rw [looked, looked]
  refine .peek fun found => ?_
  by_cases same : found = some token
  · subst found
    simpa using isNext
  · have different : (found == some token) = false :=
      beq_eq_false_iff_ne.mpr same
    simpa [different] using isNot found

theorem expectKeyword {reserved : Keyword}
    (unnumbered : LabelKind.ofToken? (.keyword reserved) = none) :
    Alike related next (Pass.expectKeyword reserved)
      (Pass.expectKeyword reserved) :=
  ite_next (.advance unnumbered) fun _ => .unexpected _

theorem expectSymbol (sign : Symbol) :
    Alike related next (Pass.expectSymbol sign) (Pass.expectSymbol sign) :=
  ite_next (.advance rfl) fun _ => .unexpected _

theorem expectName (role : NameRole) :
    Alike related next (Pass.expectName role) (Pass.expectName role) := by
  refine .peek fun found => ?_
  split
  next name => exact .bind (.advance rfl) fun _ => .pure name
  next => exact .unexpected _

theorem ofToken?_eq_none_of_type {token : Token} {type : TypeName}
    (named : TypeName.ofToken? token = some type) :
    LabelKind.ofToken? token = none := by
  rw [TypeName.ofToken?_eq_some_iff] at named
  subst token
  cases type <;> rfl

theorem expectType :
    Alike related next Pass.expectType Pass.expectType := by
  refine .peek fun found => ?_
  cases selected : found.bind TypeName.ofToken? with
  | none => exact .unexpected _
  | some type =>
      obtain ⟨token, rfl, named⟩ := Option.bind_eq_some_iff.mp selected
      exact .bind (.advance (ofToken?_eq_none_of_type named))
        fun _ => .pure type

theorem expectResultType :
    Alike related next Pass.expectResultType Pass.expectResultType := by
  refine ite_next (.advance rfl) fun _ => .peek fun found => ?_
  cases selected : found.bind TypeName.ofToken? with
  | none => exact .unexpected _
  | some type =>
      obtain ⟨token, rfl, named⟩ := Option.bind_eq_some_iff.mp selected
      exact .advance (ofToken?_eq_none_of_type named)

/-- Resolving a name leaves the next token where it is. -/
theorem require_bind (scope : Scope) (name : String)
    {later other : Variable → Pass β}
    (alike : ∀ resolved,
      Alike related next (later resolved) (other resolved)) :
    Alike related next (Pass.require scope name >>= later)
      (Pass.require scope name >>= other) := by
  unfold Pass.require
  cases scope.resolve? name with
  | some resolved => exact alike resolved
  | none => exact .refuse trivial

theorem tooDeep (node : Node) :
    Alike related next (Pass.tooDeep node : Pass α)
      (Pass.tooDeep node) :=
  .refuse trivial

theorem addArguments (target : String) (count more : Nat) :
    Alike related next (Pass.addArguments target count more)
      (Pass.addArguments target count more) := by
  unfold Pass.addArguments
  by_cases few : count + more ≤ maxCount
  · rw [if_pos few]
    exact .pure _
  · rw [if_neg few]
    exact .refuse trivial

theorem declare (name type : String) (kind : VariableKind)
    (table : SymbolTable) :
    Alike related next (Pass.declare name type kind table)
      (Pass.declare name type kind table) := by
  unfold Pass.declare
  cases inserted : table.insert name type kind with
  | mk answer behind =>
      cases answer with
      | ok index => exact .pure behind
      | error cause =>
          have refused := congrArg Prod.fst inserted
          exact .refuse (SymbolTable.isRule_of_insert refused)

/-- What is separated by commas is alike if every single part is. -/
theorem commaSeparated {item other : β → Pass β} (initial : β)
    (parts : ∀ next result,
      Alike related next (item result) (other result)) :
    Alike related next (Pass.commaSeparated item initial)
      (Pass.commaSeparated other initial) := by
  refine .bind (parts next initial) fun first => ?_
  refine .repeatWhile first ?_
  intro token choice result selected
  rw [exactly_eq_some_iff] at selected
  subst selected
  exact .bind (.advance rfl) fun _ => parts none result

/-! ## Expressions -/

theorem callTarget (scope : Scope) (name : String) :
    Alike related next (Pass.callTarget scope name)
      (Pass.callTarget scope name) := by
  refine ite_next ?_ fun _ => ?_
  · refine .bind (.advance rfl) fun _ => ?_
    refine .bind (expectName .subroutine) fun subroutine => ?_
    cases scope.resolve? name with
    | some receiver => exact .bind (emit_same rfl) fun _ => .pure _
    | none => exact .pure _
  · exact .bind (emit_same rfl) fun _ => .pure _

theorem subroutineCall {scope : Scope} {arguments other : String → Pass Nat}
    (name : String)
    (parts : ∀ target, Alike related none (arguments target)
      (other target)) :
    Alike related next (Pass.subroutineCall scope arguments name)
      (Pass.subroutineCall scope other name) := by
  refine .bind (callTarget scope name) fun found => ?_
  refine .bind (expectSymbol .leftParen) fun _ => ?_
  refine .bind (parts found.1) fun count => ?_
  refine .bind (expectSymbol .rightParen) fun _ => ?_
  refine .bind (addArguments found.1 count found.2) fun sum => ?_
  exact emit_same rfl

theorem ofToken?_eq_none_of_binaryOperator {token : Token}
    {operator : BinaryOperator}
    (selected : token.binaryOperator? = some operator) :
    LabelKind.ofToken? token = none := by
  cases token with
  | symbol sign => rfl
  | identifier name => rfl
  | integer value => rfl
  | keyword reserved => cases selected
  | string content => rfl

theorem ofToken?_eq_none_of_constant {reserved : Keyword}
    {word : KeywordConstant}
    (selected : KeywordConstant.ofKeyword? reserved = some word) :
    LabelKind.ofToken? (.keyword reserved) = none := by
  rw [KeywordConstant.ofKeyword?_eq_some_iff] at selected
  subst reserved
  cases word <;> rfl

mutual

theorem expression (scope : Scope) :
    ∀ (room : Nat) {next : Option (Option Token)},
      Alike related next (Pass.expression scope room)
        (Pass.expression scope room)
  | 0, _ => tooDeep .expression
  | room + 1, _ => by
      rw [Pass.expression]
      refine .within .expression ?_
      refine .bind (term scope room) fun _ => ?_
      refine .repeatWhile () ?_
      intro token operator result selected
      refine .bind
        (.advance (ofToken?_eq_none_of_binaryOperator selected))
        fun _ => ?_
      refine .bind (term scope room) fun _ => ?_
      refine emit_same ?_
      simp [operator.command_movesWords]

theorem term (scope : Scope) :
    ∀ (room : Nat) {next : Option (Option Token)},
      Alike related next (Pass.term scope room) (Pass.term scope room)
  | 0, _ => by
      rw [Pass.term]
      refine .peek fun found => ?_
      cases found with
      | none => exact .bind (.unexpected .term) fun _ => tooDeep .term
      | some token => exact tooDeep .term
  | room + 1, _ => by
      rw [Pass.term]
      refine .peek fun found => ?_
      cases found with
      | none => exact .unexpected .term
      | some first =>
          refine .within .term ?_
          cases first with
          | integer value =>
              exact .bind (.advance rfl) fun _ => emit_same rfl
          | string text =>
              refine .bind (.advance rfl) fun _ => ?_
              by_cases short : text.utf8ByteSize ≤ maxCount
              · rw [if_pos short]
                exact emit_same (Fragment.string_movesWords text)
              · rw [if_neg short]
                exact .refuse trivial
          | keyword reserved =>
              dsimp only
              cases selected : KeywordConstant.ofKeyword? reserved with
              | none => exact .unexpected .term
              | some constant =>
                  refine .bind
                    (.advance (ofToken?_eq_none_of_constant selected))
                    fun _ => ?_
                  exact emit_same constant.commands_movesWords
          | symbol sign =>
              by_cases opening : sign = .leftParen
              · subst opening
                refine .bind (.advance rfl) fun _ => ?_
                refine .bind (expression scope room) fun _ => ?_
                exact expectSymbol .rightParen
              · simp only
                cases selected : sign.unaryOperator? with
                | none => exact .unexpected .term
                | some operator =>
                    refine .bind (.advance rfl) fun _ => ?_
                    refine .bind (term scope room) fun _ => ?_
                    refine emit_same ?_
                    simp [operator.command_movesWords]
          | identifier name =>
              refine .bind (.advance rfl) fun _ => ?_
              refine .peek fun found => ?_
              split
              next =>
                refine require_bind scope name fun array => ?_
                refine .bind (.advance rfl) fun _ => ?_
                refine .bind (emit_same rfl) fun _ => ?_
                refine .bind (expression scope room) fun _ => ?_
                refine .bind (expectSymbol .rightBracket) fun _ => ?_
                exact emit_same rfl
              next =>
                exact subroutineCall name fun _ =>
                  expressionList scope room _
              next =>
                exact subroutineCall name fun _ =>
                  expressionList scope room _
              next =>
                refine require_bind scope name fun resolved => ?_
                exact emit_same rfl

theorem expressionList (scope : Scope) :
    ∀ (room : Nat) (target : String) {next : Option (Option Token)},
      Alike related next (Pass.expressionList scope room target)
        (Pass.expressionList scope room target)
  | 0, _, _ => tooDeep .expressionList
  | room + 1, target, _ => by
      rw [Pass.expressionList]
      refine .within .expressionList ?_
      refine ite_next (.pure 0) fun _ => ?_
      refine commaSeparated 0 fun _ count => ?_
      refine .bind (expression scope room) fun _ => ?_
      exact addArguments target count 1

end

/-! ## Statements -/

theorem letStatement (scope : Scope) :
    ∀ (room : Nat),
      Alike related next (Pass.letStatement scope room)
        (Pass.letStatement scope room)
  | 0 => tooDeep .letStatement
  | room + 1 => by
      rw [Pass.letStatement]
      refine .within .letStatement ?_
      refine .bind (expectKeyword rfl) fun _ => ?_
      refine .bind (expectName .variable) fun name => ?_
      refine require_bind scope name fun target => ?_
      refine ite_next ?_ fun _ => ?_
      · refine .bind (.advance rfl) fun _ => ?_
        refine .bind (emit_same rfl) fun _ => ?_
        refine .bind (expression scope room) fun _ => ?_
        refine .bind (expectSymbol .rightBracket) fun _ => ?_
        refine .bind (emit_same rfl) fun _ => ?_
        refine .bind (expectSymbol .equal) fun _ => ?_
        refine .bind (expression scope room) fun _ => ?_
        refine .bind (expectSymbol .semicolon) fun _ => ?_
        exact emit_same rfl
      · refine .bind (expectSymbol .equal) fun _ => ?_
        refine .bind (expression scope room) fun _ => ?_
        refine .bind (expectSymbol .semicolon) fun _ => ?_
        exact emit_same rfl

theorem doStatement (scope : Scope) :
    ∀ (room : Nat),
      Alike related next (Pass.doStatement scope room)
        (Pass.doStatement scope room)
  | 0 => tooDeep .doStatement
  | room + 1 => by
      rw [Pass.doStatement]
      refine .within .doStatement ?_
      refine .bind (expectKeyword rfl) fun _ => ?_
      refine .bind (expectName .subroutine) fun name => ?_
      refine .bind
        (subroutineCall name fun _ => expressionList scope room _)
        fun _ => ?_
      refine .bind (expectSymbol .semicolon) fun _ => ?_
      exact emit_same rfl

theorem returnStatement (scope : Scope) :
    ∀ (room : Nat),
      Alike related next (Pass.returnStatement scope room)
        (Pass.returnStatement scope room)
  | 0 => tooDeep .returnStatement
  | room + 1 => by
      rw [Pass.returnStatement]
      refine .within .returnStatement ?_
      refine .bind (expectKeyword rfl) fun _ => ?_
      have ending : List.Forall₂ (Command.Alike related)
          [.return] [.return] :=
        .cons (.same rfl rfl) .nil
      refine ite_next ?_ fun _ => ?_
      · refine .bind (emit_same rfl) fun _ => ?_
        exact .bind (expectSymbol .semicolon) fun _ => .emit ending
      · refine .bind (expression scope room) fun _ => ?_
        exact .bind (expectSymbol .semicolon) fun _ => .emit ending

theorem condition (scope : Scope) (room : Nat) {first second : String}
    (place : LabelPair.SamePlace related first second) :
    Alike related next (Pass.condition scope room first)
      (Pass.condition scope room second) := by
  refine .bind (expectSymbol .leftParen) fun _ => ?_
  refine .bind (expression scope room) fun _ => ?_
  refine .bind (expectSymbol .rightParen) fun _ => ?_
  exact .emit (.cons (.same rfl rfl) (.cons (.ifGoto place) .nil))

theorem braced {body other : Pass Unit}
    (parts : Alike related none body other) :
    Alike related next (Pass.braced body) (Pass.braced other) := by
  refine .bind (expectSymbol .leftBrace) fun _ => ?_
  refine .bind parts fun _ => ?_
  exact expectSymbol .rightBrace

mutual

theorem statements (scope : Scope) :
    ∀ (room : Nat) {next : Option (Option Token)},
      Alike related next (Pass.statements scope room)
        (Pass.statements scope room)
  | 0, _ => tooDeep .statements
  | room + 1, _ => by
      rw [Pass.statements]
      refine .within .statements ?_
      refine .repeatWhile () ?_
      intro token word result _
      cases word with
      | «let» => exact letStatement scope room
      | «if» => exact ifStatement scope room
      | «while» => exact whileStatement scope room
      | «do» => exact doStatement scope room
      | «return» => exact returnStatement scope room

theorem ifStatement (scope : Scope) :
    ∀ (room : Nat) {next : Option (Option Token)},
      Alike related next (Pass.ifStatement scope room)
        (Pass.ifStatement scope room)
  | 0, _ => tooDeep .ifStatement
  | room + 1, _ => by
      rw [Pass.ifStatement]
      refine .within .ifStatement ?_
      refine .numbered .if fun labels otherLabels pairs => ?_
      have start := LabelPair.SamePlace.start pairs
      have finish := LabelPair.SamePlace.finish pairs
      have ending : List.Forall₂ (Command.Alike related)
          [.label labels.finish] [.label otherLabels.finish] :=
        .cons (.label finish) .nil
      refine .bind (condition scope room start) fun _ => ?_
      refine .bind (braced (statements scope room)) fun _ => ?_
      refine .bind
        (.emit (.cons (.goto finish) (.cons (.label start) .nil)))
        fun _ => ?_
      refine ite_next ?_ fun _ => ?_
      · refine .bind (.advance rfl) fun _ => ?_
        refine .bind (braced (statements scope room)) fun _ => ?_
        exact .emit ending
      · exact .emit ending

theorem whileStatement (scope : Scope) :
    ∀ (room : Nat) {next : Option (Option Token)},
      Alike related next (Pass.whileStatement scope room)
        (Pass.whileStatement scope room)
  | 0, _ => tooDeep .whileStatement
  | room + 1, _ => by
      rw [Pass.whileStatement]
      refine .within .whileStatement ?_
      refine .numbered .while fun labels otherLabels pairs => ?_
      have start := LabelPair.SamePlace.start pairs
      have finish := LabelPair.SamePlace.finish pairs
      refine .bind (.emit (.cons (.label start) .nil)) fun _ => ?_
      refine .bind (condition scope room finish) fun _ => ?_
      refine .bind (braced (statements scope room)) fun _ => ?_
      exact .emit (.cons (.goto start) (.cons (.label finish) .nil))

end

/-! ## Declarations -/

theorem variableNames (type : TypeName) (kind : VariableKind)
    (table : SymbolTable) :
    Alike related next (Pass.variableNames type kind table)
      (Pass.variableNames type kind table) := by
  refine .bind (commaSeparated table fun _ found => ?_) fun behind => ?_
  · refine .bind (expectName .variable) fun name => ?_
    exact declare name type.word kind found
  · exact .bind (expectSymbol .semicolon) fun _ => .pure behind

theorem varDec (table : SymbolTable) :
    Alike related next (Pass.varDec table) (Pass.varDec table) := by
  refine .within .varDec ?_
  refine .bind (expectKeyword rfl) fun _ => ?_
  refine .bind expectType fun type => ?_
  exact variableNames type .local table

theorem classVarDec {token : Token} {kind : ClassVariableKind}
    (selected : ClassVariableKind.ofToken? token = some kind)
    (table : SymbolTable) :
    Alike related (some (some token)) (Pass.classVarDec kind table)
      (Pass.classVarDec kind table) := by
  have unnumbered : LabelKind.ofToken? token = none := by
    rw [ClassVariableKind.ofToken?_eq_some_iff] at selected
    subst token
    cases kind <;> rfl
  refine .within .classVarDec ?_
  refine .bind (.advance unnumbered) fun _ => ?_
  refine .bind expectType fun type => ?_
  exact variableNames type kind.kind table

theorem parameterList (table : SymbolTable) :
    Alike related next (Pass.parameterList table)
      (Pass.parameterList table) := by
  refine .within .parameterList ?_
  refine ite_next (.pure table) fun _ => ?_
  refine commaSeparated table fun _ found => ?_
  refine .bind expectType fun type => ?_
  refine .bind (expectName .parameter) fun name => ?_
  exact declare name type.word .argument found

/-! ## Subroutines and classes -/

theorem implicitArguments (kind : SubroutineKind) (className : String) :
    Alike related next (Pass.implicitArguments kind className)
      (Pass.implicitArguments kind className) := by
  cases kind with
  | method => exact declare _ className .argument SymbolTable.empty
  | «constructor» => exact .pure _
  | «function» => exact .pure _

theorem subroutineBody (className : String) (classTable : SymbolTable)
    (kind : SubroutineKind) (fullName : String) (table : SymbolTable) :
    Alike related next
      (Pass.subroutineBody className classTable kind fullName table)
      (Pass.subroutineBody className classTable kind fullName table) := by
  have prologue :
      (kind.prologue (classTable.count .field)).all
        Command.movesWords := by
    cases kind <;> rfl
  refine .within .subroutineBody ?_
  refine .bind (expectSymbol .leftBrace) fun _ => ?_
  refine .bind (.repeatWhile table ?_) fun behind => ?_
  · intro token _ found _
    exact varDec found
  refine .bind (.emit (.cons (.same rfl rfl) (commands_same prologue)))
    fun _ => ?_
  refine .bind (statements _ _) fun _ => ?_
  exact .bind (expectSymbol .rightBrace) fun _ => .pure behind

theorem subroutineDec {token : Token} {kind : SubroutineKind}
    (selected : SubroutineKind.ofToken? token = some kind)
    (className : String) (classTable : SymbolTable) :
    Alike related (some (some token))
      (Pass.subroutineDec className classTable kind)
      (Pass.subroutineDec className classTable kind) := by
  have unnumbered : LabelKind.ofToken? token = none := by
    rw [SubroutineKind.ofToken?_eq_some_iff] at selected
    subst token
    cases kind <;> rfl
  refine .bind (.within .subroutineDec ?_) fun finished => .finish finished
  refine .bind (.advance unnumbered) fun _ => ?_
  refine .bind expectResultType fun _ => ?_
  refine .bind (expectName .subroutine) fun name => ?_
  refine .bind (implicitArguments kind className) fun implicit => ?_
  refine .bind (expectSymbol .leftParen) fun _ => ?_
  refine .bind (parameterList implicit) fun arguments => ?_
  refine .bind (expectSymbol .rightParen) fun _ => ?_
  refine .bind (subroutineBody className classTable kind _ arguments)
    fun table => ?_
  exact .pure _

theorem classDec :
    Alike related next Pass.classDec Pass.classDec := by
  refine .within .classDec ?_
  refine .bind (expectKeyword rfl) fun _ => ?_
  refine .bind (expectName .className) fun name => ?_
  refine .bind (expectSymbol .leftBrace) fun _ => ?_
  refine .bind (.repeatWhile SymbolTable.empty ?_) fun table => ?_
  · intro token kind found selected
    exact classVarDec selected found
  refine .bind (.repeatWhile () ?_) fun _ => ?_
  · intro token kind _ selected
    exact subroutineDec selected name table
  exact .bind (expectSymbol .rightBrace) fun _ => .pure _

/-- The whole pass is alike to itself, whatever numbers it is given. -/
theorem compilationUnit :
    Alike related next Pass.compilationUnit Pass.compilationUnit := by
  refine .bind classDec fun head => ?_
  refine .peek fun found => ?_
  cases found with
  | none => exact .pure head
  | some token => exact .bind (.unexpected .endOfFile) fun _ => .pure head

end Alike

end Pass

end JackToVm
