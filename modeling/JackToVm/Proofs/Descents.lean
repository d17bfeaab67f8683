import JackToVm.Proofs.Accords

/-!
# The procedures of a descent

Every procedure of a descent accords with the procedure of a pass that is told
how many more nodes fit. The recursion is on that number: a procedure that calls
itself, directly or through others, enters a node before it does, so that one
node less fits inside.
-/

namespace JackToVm.Descent.Accords

variable {placed : Prop} {next : Option (Option Token)} {left room : Nat}

/-! ## Expressions -/

theorem stringConstant (text : String) :
    Accords placed next left room [] 0 (Descent.stringConstant text)
      (Pass.stringConstant text) := by
  unfold Descent.stringConstant Pass.stringConstant
  split
  · exact emit _
  · exact checks fun _ => rfl

theorem callTarget (scope : Scope) (name : String) :
    Accords placed next left room [] 0 (Descent.callTarget scope name)
      (Pass.callTarget scope name) := by
  refine ite_next (fun _ => ?_) fun _ _ => ?_
  · refine bind advance fun _ => ?_
    refine bind (expectName .subroutine) fun subroutine => ?_
    cases scope.resolve? name with
    | some receiver => exact bind (emit [receiver.push]) fun _ => pure _
    | none => exact pure _
  · exact bind (emit _) fun _ => pure _

theorem subroutineCall {scope : Scope} (name : String)
    (parts : ∀ {next left} target, Accords placed next left room [] 0
      (Descent.expressionList scope target)
      (Pass.expressionList scope room target)) :
    Accords placed next left room [] 1 (Descent.subroutineCall scope name)
      (Pass.subroutineCall scope (Pass.expressionList scope room) name) := by
  refine bind (callTarget scope name) fun found => ?_
  refine bind (expectSymbol .leftParen) fun _ => ?_
  refine bind (call (parts found.1)) fun count => ?_
  refine bind (expectSymbol .rightParen) fun _ => ?_
  refine bind (addArguments found.1 count found.2) fun sum => ?_
  exact emit _

theorem nameTerm {scope : Scope} (name : String)
    (inner : ∀ {next left}, Accords placed next left room [] 1
      (Descent.expression scope) (Pass.expression scope room))
    (parts : ∀ {next left} target, Accords placed next left room [] 0
      (Descent.expressionList scope target)
      (Pass.expressionList scope room target)) :
    Accords placed next left room [] 0 (Descent.nameTerm scope name)
      (Pass.nameTerm scope room name) := by
  refine peek fun found _ => ?_
  split
  next =>
    refine require_bind scope name fun array => ?_
    refine bind advance fun _ => ?_
    refine bind (emit _) fun _ => ?_
    refine bind (call inner) fun _ => ?_
    refine bind (expectSymbol .rightBracket) fun _ => ?_
    exact emit _
  next => exact (call (subroutineCall name parts)).weaken (Nat.zero_le _)
  next => exact (call (subroutineCall name parts)).weaken (Nat.zero_le _)
  next =>
    refine require_bind scope name fun resolved => ?_
    exact emit _

mutual

theorem expression (scope : Scope) :
    ∀ (room : Nat) {next : Option (Option Token)} {left : Nat},
      Accords placed next left room [] 1 (Descent.expression scope)
        (Pass.expression scope room)
  | 0, _, _ => by
      rw [Pass.expression]
      exact tooDeep
  | room + 1, _, _ => by
      rw [Pass.expression]
      refine within_succ ?_
      refine bind (call (term scope room)) fun _ => ?_
      refine last (repeatWhile (fun left _ chosen => ?_) ())
      refine bind advance fun _ => ?_
      refine bind (call (term scope room)) fun _ => ?_
      exact emit _

theorem term (scope : Scope) :
    ∀ (room : Nat) {next : Option (Option Token)} {left : Nat},
      Accords placed next left room [] 1 (Descent.term scope)
        (Pass.term scope room)
  | 0, _, _ => by
      -- A term that is missing is found missing before a node is entered.
      rw [Pass.term]
      refine peek fun found _ => ?_
      cases found with
      | none => exact unexpected .term
      | some token => exact tooDeep
  | room + 1, _, _ => by
      rw [Pass.term]
      refine peek fun found _ => ?_
      cases found with
      | none => exact unexpected .term
      | some first =>
          refine within_succ ?_
          cases first with
          | integer value =>
              exact bind advance fun _ => last (emit _)
          | string text =>
              exact bind advance fun _ => last (call (stringConstant text))
          | keyword reserved =>
              dsimp only
              cases KeywordConstant.ofKeyword? reserved with
              | none => exact unexpected_bind .term
              | some constant =>
                  exact bind advance fun _ => last (emit _)
          | symbol sign =>
              by_cases opening : sign = .leftParen
              · subst opening
                refine bind advance fun _ => ?_
                refine bind (call (expression scope room)) fun _ => ?_
                exact last ((expectSymbol _).weaken (Nat.zero_le _))
              · simp only
                cases selected : sign.unaryOperator? with
                | none => exact unexpected_bind .term
                | some operator =>
                    refine bind advance fun _ => ?_
                    refine bind (call (term scope room)) fun _ => ?_
                    exact last (emit _)
          | identifier name =>
              refine bind advance fun _ => ?_
              exact last (call (nameTerm name (expression scope room)
                (expressionList scope room)))

theorem expressionList (scope : Scope) :
    ∀ (room : Nat) {next : Option (Option Token)} {left : Nat}
      (target : String),
      Accords placed next left room [] 0
        (Descent.expressionList scope target)
        (Pass.expressionList scope room target)
  | 0, _, _, _ => by
      rw [Pass.expressionList]
      exact tooDeep
  | room + 1, _, _, target => by
      rw [Pass.expressionList]
      refine within_succ (yields (ite_next (fun _ => ?_) fun _ _ => ?_))
      · exact pure 0
      · refine (commaSeparated (fun count => ?_) 0).weaken (Nat.zero_le _)
        refine bind (call (expression scope room)) fun _ => ?_
        exact addArguments target count 1

end

/-! ## Statements -/

theorem letStatement (scope : Scope) (room : Nat) :
    Accords placed next left room [] 1 (Descent.letStatement scope)
      (Pass.letStatement scope room) := by
  cases room with
  | zero =>
      rw [Pass.letStatement]
      exact tooDeep
  | succ room =>
      rw [Pass.letStatement]
      refine within_succ ?_
      refine bind (expectKeyword .let) fun _ => ?_
      refine bind (expectName .variable) fun name => ?_
      refine require_bind scope name fun target => ?_
      refine ite_next (fun _ => ?_) fun _ _ => ?_
      · refine bind advance fun _ => ?_
        refine bind (emit _) fun _ => ?_
        refine bind (call (expression scope room)) fun _ => ?_
        refine bind (expectSymbol .rightBracket) fun _ => ?_
        refine bind (emit _) fun _ => ?_
        refine bind (expectSymbol .equal) fun _ => ?_
        refine bind (call (expression scope room)) fun _ => ?_
        refine bind (expectSymbol .semicolon) fun _ => ?_
        exact last (emit _)
      · refine bind (expectSymbol .equal) fun _ => ?_
        refine bind (call (expression scope room)) fun _ => ?_
        refine bind (expectSymbol .semicolon) fun _ => ?_
        exact last (emit _)

theorem doStatement (scope : Scope) (room : Nat) :
    Accords placed next left room [] 1 (Descent.doStatement scope)
      (Pass.doStatement scope room) := by
  cases room with
  | zero =>
      rw [Pass.doStatement]
      exact tooDeep
  | succ room =>
      rw [Pass.doStatement]
      refine within_succ ?_
      refine bind (expectKeyword .do) fun _ => ?_
      refine bind (expectName .subroutine) fun name => ?_
      refine bind (call (subroutineCall name (expressionList scope room)))
        fun _ => ?_
      refine bind (expectSymbol .semicolon) fun _ => ?_
      exact last (emit _)

theorem returnStatement (scope : Scope) (room : Nat) :
    Accords placed next left room [] 1 (Descent.returnStatement scope)
      (Pass.returnStatement scope room) := by
  cases room with
  | zero =>
      rw [Pass.returnStatement]
      exact tooDeep
  | succ room =>
      rw [Pass.returnStatement]
      refine within_succ ?_
      refine bind (expectKeyword .return) fun _ => ?_
      refine ite_next (fun _ => ?_) fun _ _ => ?_
      · refine bind (emit _) fun _ => ?_
        refine bind (expectSymbol .semicolon) fun _ => ?_
        exact last (emit _)
      · refine bind (call (expression scope room)) fun _ => ?_
        refine bind (expectSymbol .semicolon) fun _ => ?_
        exact last (emit _)

theorem condition (scope : Scope) (room : Nat) (otherwise : String) :
    Accords placed next left room [] 1 (Descent.condition scope otherwise)
      (Pass.condition scope room otherwise) := by
  refine bind (expectSymbol .leftParen) fun _ => ?_
  refine bind (call (expression scope room)) fun _ => ?_
  refine bind (expectSymbol .rightParen) fun _ => ?_
  exact emit _

/-- A pass reads the statements of a block, whatever it is a block of. -/
theorem block {scope : Scope} {room : Nat}
    (inner : ∀ {next left}, Accords placed next left room [] 0
      (Descent.statements scope) (Pass.statements scope room)) :
    Accords placed next left room [] 1 (Descent.block scope)
      (Pass.braced (Pass.statements scope room)) := by
  refine bind (expectSymbol .leftBrace) fun _ => ?_
  refine bind (call inner) fun _ => ?_
  exact (expectSymbol .rightBrace).weaken (Nat.zero_le _)

mutual

theorem statements (scope : Scope) :
    ∀ (room : Nat) {next : Option (Option Token)} {left : Nat},
      Accords placed next left room [] 0 (Descent.statements scope)
        (Pass.statements scope room)
  | 0, _, _ => by
      rw [Pass.statements]
      exact tooDeep
  | room + 1, _, _ => by
      rw [Pass.statements]
      refine within_succ (last (repeatWhile (fun {_ word} left _ _ => ?_) ()))
      cases word with
      | «let» => exact call (letStatement scope room)
      | «if» => exact call (ifStatement scope room)
      | «while» => exact call (whileStatement scope room)
      | «do» => exact call (doStatement scope room)
      | «return» => exact call (returnStatement scope room)

theorem ifStatement (scope : Scope) :
    ∀ (room : Nat) {next : Option (Option Token)} {left : Nat},
      Accords placed next left room [] 1 (Descent.ifStatement scope)
        (Pass.ifStatement scope room)
  | 0, _, _ => by
      rw [Pass.ifStatement]
      exact tooDeep
  | room + 1, _, _ => by
      rw [Pass.ifStatement]
      refine within_succ ?_
      refine bind (expectKeyword .if) fun _ => ?_
      refine bind (takeLabels .if) fun labels => ?_
      refine bind (condition scope room labels.start) fun _ => ?_
      refine bind (block (statements scope room)) fun _ => ?_
      refine bind (emit _) fun _ => ?_
      refine ite_next (fun _ => ?_) fun _ _ => ?_
      · refine bind advance fun _ => ?_
        refine bind (block (statements scope room)) fun _ => ?_
        exact last (emit _)
      · exact last (emit _)

theorem whileStatement (scope : Scope) :
    ∀ (room : Nat) {next : Option (Option Token)} {left : Nat},
      Accords placed next left room [] 1 (Descent.whileStatement scope)
        (Pass.whileStatement scope room)
  | 0, _, _ => by
      rw [Pass.whileStatement]
      exact tooDeep
  | room + 1, _, _ => by
      rw [Pass.whileStatement]
      refine within_succ ?_
      refine bind (expectKeyword .while) fun _ => ?_
      refine bind (takeLabels .while) fun labels => ?_
      refine bind (emit _) fun _ => ?_
      refine bind (condition scope room labels.finish) fun _ => ?_
      refine bind (block (statements scope room)) fun _ => ?_
      exact last (emit _)

end

/-! ## Declarations -/

theorem variableNames (type : TypeName) (kind : VariableKind)
    (table : SymbolTable) :
    Accords placed next left room [] 1
      (Descent.variableNames type kind table)
      (Pass.variableNames type kind table) := by
  refine bind (commaSeparated (fun table => ?_) table) fun table => ?_
  · refine bind (expectName .variable) fun name => ?_
    exact declare name type.word kind table
  · refine bind (expectSymbol .semicolon) fun _ => ?_
    exact pure table

theorem classVarDec {token : Token} (kind : ClassVariableKind)
    (table : SymbolTable) (fits : placed → 0 < room) :
    Accords placed (some (some token)) left room [] 1
      (Descent.classVarDec kind table) (Pass.classVarDec kind table) := by
  refine within (fun inner _ => ?_) fits
  refine bind advance fun _ => ?_
  refine bind expectType fun type => ?_
  exact yields ((call (variableNames type kind.kind table)).weaken
    (Nat.zero_le _))

theorem varDec (table : SymbolTable) (fits : placed → 0 < room) :
    Accords placed next left room [] 1 (Descent.varDec table)
      (Pass.varDec table) := by
  refine within (fun inner _ => ?_) fits
  refine bind (expectKeyword .var) fun _ => ?_
  refine bind expectType fun type => ?_
  exact yields ((call (variableNames type .local table)).weaken
    (Nat.zero_le _))

theorem parameterList (table : SymbolTable) (fits : placed → 0 < room) :
    Accords placed next left room [] 0 (Descent.parameterList table)
      (Pass.parameterList table) := by
  refine within (fun inner _ => ?_) fits
  refine yields (ite_next (fun _ => ?_) fun _ _ => ?_)
  · exact pure table
  · refine (commaSeparated (fun table => ?_) table).weaken (Nat.zero_le _)
    refine bind expectType fun type => ?_
    refine bind (expectName .parameter) fun name => ?_
    exact declare name type.word .argument table

/-! ## Subroutines and classes -/

/-- A pass may read a body only where just as many nodes fit as it
believes. -/
theorem subroutineBody (className : String) (classTable : SymbolTable)
    (kind : SubroutineKind) (fullName : String) (table : SymbolTable)
    (fits : placed → room = Pass.bodyRoom + 1) :
    Accords placed next left room [] 1
      (Descent.subroutineBody className classTable kind fullName table)
      (Pass.subroutineBody className classTable kind fullName table) := by
  refine within (fun inner same => ?_)
    fun holds => fits holds ▸ Nat.succ_pos _
  have fitsInside : placed → inner = Pass.bodyRoom :=
    fun holds => Nat.succ.inj (same.symm.trans (fits holds))
  have someFit : placed → 0 < inner :=
    fun holds => fitsInside holds ▸ by decide
  refine bind (expectSymbol .leftBrace) fun _ => ?_
  refine bind (repeatWhile (fun left table _ => ?_) table) fun table => ?_
  · exact call (varDec table someFit)
  · refine bind (emit _) fun _ => ?_
    refine bind (call ((statements _ inner).of_eq fun holds => ?_))
      fun _ => ?_
    · rw [fitsInside holds]
    · refine bind (expectSymbol .rightBrace) fun _ => ?_
      exact leave table

theorem subroutineDec {token : Token} (className : String)
    (classTable : SymbolTable) (kind : SubroutineKind)
    (fits : placed → room = Node.maxDepth - 1) :
    Accords placed (some (some token)) left room [] 1
      (Descent.subroutineDec className classTable kind)
      (Pass.subroutineDec className classTable kind) := by
  refine andThen (within (fun inner same => ?_)
    fun holds => fits holds ▸ by decide) fun finished => finish finished
  have fitsInside : placed → inner = Pass.bodyRoom + 1 :=
    fun holds => Nat.succ.inj (same.symm.trans (fits holds))
  refine bind advance fun _ => ?_
  refine bind expectResultType fun _ => ?_
  refine bind (expectName .subroutine) fun name => ?_
  refine bind (implicitArguments kind className) fun table => ?_
  refine bind (expectSymbol .leftParen) fun _ => ?_
  refine bind (call (parameterList table fun holds =>
    fitsInside holds ▸ Nat.succ_pos _)) fun table => ?_
  refine bind (expectSymbol .rightParen) fun _ => ?_
  refine bind (subroutineBody className classTable kind _ table
    fitsInside) fun table => ?_
  exact leave _

theorem classDec (fits : placed → room = Node.maxDepth) :
    Accords placed next left room [] 1 Descent.classDec
      Pass.classDec := by
  refine within (fun inner same => ?_) fun holds => fits holds ▸ by decide
  have fitsInside : placed → inner = Node.maxDepth - 1 :=
    fun holds => Nat.succ.inj (same.symm.trans (fits holds))
  have someFit : placed → 0 < inner :=
    fun holds => fitsInside holds ▸ by decide
  refine bind (expectKeyword .classWord) fun _ => ?_
  refine bind (expectName .className) fun name => ?_
  refine bind (expectSymbol .leftBrace) fun _ => ?_
  refine bind (repeatWhile (fun {_ kind} left table _ => ?_) _)
    fun table => ?_
  · exact call (classVarDec kind table someFit)
  · refine bind (repeatWhile (fun {_ kind} left _ _ => ?_) ()) fun _ => ?_
    · exact call (subroutineDec name table kind fitsInside)
    · refine bind (expectSymbol .rightBrace) fun _ => ?_
      exact leave _

theorem compilationUnit (fits : placed → room = Node.maxDepth) :
    Accords placed next left room [] 1 Descent.compilationUnit
      Pass.compilationUnit := by
  refine bind (call (classDec fits)) fun head => ?_
  refine peek fun found _ => ?_
  cases found with
  | none => exact pure head
  | some token => exact unexpected_bind .endOfFile

end JackToVm.Descent.Accords
