import JackToVm.Proofs.ExpressionParsing

/-!
# Parsing statements

A sequence of statements is any number of statements, and the word that begins
a statement decides what stands behind it. The compiler of statements parses
the language of sequences in front of a token that begins no statement.
-/

namespace JackToVm

open Grammar
open scoped Computability
open DerivationTree (yieldOfList)

namespace Grammar

/-! ## Languages of statements -/

/-- A condition between its parentheses. -/
abbrev conditionInParens : Language Token :=
  enclosed (.symbol .leftParen) (.symbol .rightParen) Expression.children

/-- Statements between their braces. -/
abbrev block : Language Token :=
  enclosed (.symbol .leftBrace) (.symbol .rightBrace) Statements.children

/-- The end of an assignment. -/
abbrev assignedValue : Language Token :=
  enclosed (.symbol .equal) (.symbol .semicolon) Expression.children

/-- The statements that begin with a word. -/
def statementFrom : StatementWord → Language Token
  | .let =>
      only (.keyword .let) * (name *
        (only (.symbol .leftBracket) * (yields Expression.children *
          (only (.symbol .rightBracket) * assignedValue)) + assignedValue))
  | .if =>
      only (.keyword .if) * (conditionInParens * (block *
        (1 + only (.keyword .else) * block)))
  | .while => only (.keyword .while) * (conditionInParens * block)
  | .do =>
      only (.keyword .do) *
        (name * (callBehindName * only (.symbol .semicolon)))
  | .return =>
      only (.keyword .return) *
        (only (.symbol .semicolon) +
          yields Expression.children * only (.symbol .semicolon))

/-- A statement as the only tree. -/
abbrev statementTrees (statement : Statement) : List DerivationTree :=
  [statement.derivation]

theorem mem_statement_of_statementFrom {first : StatementWord}
    {word : List Token} (member : word ∈ statementFrom first) :
    word ∈ yields statementTrees := by
  cases first with
  | «let» =>
      obtain ⟨_, _, named, rfl⟩ := mem_oneOf_mul_iff.mp member
      obtain ⟨target, _, behind, rfl⟩ := mem_oneOf_mul_iff.mp named
      rcases (Language.mem_add ..).mp behind with indexed | assigned
      · obtain ⟨_, _, inner, rfl⟩ := mem_oneOf_mul_iff.mp indexed
        obtain ⟨index, _, closed, rfl⟩ := mem_yields_mul_iff.mp inner
        obtain ⟨_, _, assigned, rfl⟩ := mem_oneOf_mul_iff.mp closed
        obtain ⟨value, rfl⟩ := mem_enclosed_iff.mp assigned
        refine ⟨.letElement target index value, ?_⟩
        simp [Statement.derivation, Expression.derivation]
      · obtain ⟨value, rfl⟩ := mem_enclosed_iff.mp assigned
        refine ⟨.letVariable target value, ?_⟩
        simp [Statement.derivation, Expression.derivation]
  | «if» =>
      obtain ⟨_, _, inParens, rfl⟩ := mem_oneOf_mul_iff.mp member
      obtain ⟨condition, _, braced, rfl⟩ :=
        mem_enclosed_mul_iff.mp inParens
      obtain ⟨body, _, behind, rfl⟩ := mem_enclosed_mul_iff.mp braced
      rcases (Language.mem_add ..).mp behind with none | other
      · rw [Language.mem_one] at none
        subst none
        refine ⟨.ifThen condition body, ?_⟩
        simp [Statement.derivation, Expression.derivation]
      · obtain ⟨_, _, bracedOther, rfl⟩ := mem_oneOf_mul_iff.mp other
        obtain ⟨otherwise, rfl⟩ := mem_enclosed_iff.mp bracedOther
        refine ⟨.ifElse condition body otherwise, ?_⟩
        simp [Statement.derivation, Expression.derivation]
  | «while» =>
      obtain ⟨_, _, inParens, rfl⟩ := mem_oneOf_mul_iff.mp member
      obtain ⟨condition, _, braced, rfl⟩ :=
        mem_enclosed_mul_iff.mp inParens
      obtain ⟨body, rfl⟩ := mem_enclosed_iff.mp braced
      refine ⟨.whileLoop condition body, ?_⟩
      simp [Statement.derivation, Expression.derivation]
  | «do» =>
      obtain ⟨_, _, called, rfl⟩ := mem_oneOf_mul_iff.mp member
      rw [← mul_assoc, ← yields_subroutineCall] at called
      obtain ⟨target, _, ⟨_, rfl⟩, rfl⟩ := mem_yields_mul_iff.mp called
      refine ⟨.doCall target, ?_⟩
      simp [Statement.derivation, DerivationTree.yieldOfList_append]
  | «return» =>
      obtain ⟨_, _, behind, rfl⟩ := mem_oneOf_mul_iff.mp member
      rcases (Language.mem_add ..).mp behind with nothing | something
      · obtain ⟨_, rfl⟩ := nothing
        exact ⟨.returnNothing, rfl⟩
      · obtain ⟨value, _, ⟨_, rfl⟩, rfl⟩ := mem_yields_mul_iff.mp something
        refine ⟨.returnValue value, ?_⟩
        simp [Statement.derivation, Expression.derivation]

/-- A statement is one of those that begin with its first word. -/
theorem exists_statementFrom (statement : Statement) :
    ∃ first, yieldOfList (statementTrees statement) ∈
      statementFrom first := by
  cases statement with
  | letVariable target value =>
      have assigned : _ ∈ assignedValue :=
        mem_enclosed Expression.children value
      refine ⟨.let, mem_only_mul _ (mem_oneOf_mul _ target
        (mem_add_right ?_))⟩
      simpa [Expression.derivation] using assigned
  | letElement array index value =>
      have assigned : _ ∈ assignedValue :=
        mem_enclosed Expression.children value
      have indexed := mem_only_mul (.symbol .leftBracket) (mem_yields_mul
        Expression.children index (mem_only_mul (.symbol .rightBracket)
          assigned))
      refine ⟨.let, mem_only_mul _ (mem_oneOf_mul _ array
        (mem_add_left ?_))⟩
      simpa [Expression.derivation] using indexed
  | ifThen condition body =>
      have braced : _ ∈ block * (1 + only (.keyword .else) * block) :=
        mem_enclosed_mul Statements.children body
          (mem_add_left Language.nil_mem_one)
      have whole : _ ∈ conditionInParens * _ :=
        mem_enclosed_mul Expression.children condition braced
      refine ⟨.if, mem_only_mul _ ?_⟩
      simpa [Expression.derivation] using whole
  | ifElse condition body otherwise =>
      have other : _ ∈ only (.keyword .else) * block :=
        mem_only_mul _ (mem_enclosed Statements.children otherwise)
      have braced : _ ∈ block * (1 + only (.keyword .else) * block) :=
        mem_enclosed_mul Statements.children body (mem_add_right other)
      have whole : _ ∈ conditionInParens * _ :=
        mem_enclosed_mul Expression.children condition braced
      refine ⟨.if, mem_only_mul _ ?_⟩
      simpa [Expression.derivation] using whole
  | whileLoop condition body =>
      have braced : _ ∈ block := mem_enclosed Statements.children body
      have whole : _ ∈ conditionInParens * _ :=
        mem_enclosed_mul Expression.children condition braced
      refine ⟨.while, mem_only_mul _ ?_⟩
      simpa [Expression.derivation] using whole
  | doCall target =>
      have called := mem_yields_mul SubroutineCall.children target
        (mem_only (.symbol .semicolon))
      rw [yields_subroutineCall, mul_assoc] at called
      refine ⟨.do, mem_only_mul _ ?_⟩
      simpa [DerivationTree.yieldOfList_append] using called
  | returnNothing =>
      exact ⟨.return, mem_only_mul _ (mem_add_left (mem_only _))⟩
  | returnValue value =>
      have something := mem_yields_mul Expression.children value
        (mem_only (.symbol .semicolon))
      refine ⟨.return, mem_only_mul _ (mem_add_right ?_)⟩
      simpa [Expression.derivation] using something

theorem mem_statementRow : ∀ body : Statements,
    yieldOfList body.children ∈ (yields statementTrees)∗
  | .nil => Language.nil_mem_kstar _
  | .cons first others => by
      have row := append_mem_kstar (mem_yields statementTrees first)
        (mem_statementRow others)
      simpa [Statements.children] using row

/-- A sequence of statements is any number of statements. -/
theorem yields_statements :
    yields Statements.children = (yields statementTrees)∗ := by
  apply yields_eq_kstar mem_statementRow ⟨.nil, rfl⟩
  rintro _ ⟨first, rfl⟩ _ ⟨others, rfl⟩
  refine ⟨.cons first others, ?_⟩
  simp [Statements.children]

/-! ## What begins a statement -/

theorem exists_mem_statementFrom (first : StatementWord) :
    ∃ word, word ∈ statementFrom first := by
  have zero : Expression := .term (.integer 0)
  have assigned : _ ∈ assignedValue :=
    mem_enclosed Expression.children zero
  have braced : _ ∈ block := mem_enclosed Statements.children .nil
  cases first with
  | «let» =>
      exact ⟨_, mem_only_mul _ (mem_oneOf_mul _ "" (mem_add_right assigned))⟩
  | «if» =>
      exact ⟨_, mem_only_mul _ (mem_enclosed_mul _ zero
        (mem_enclosed_mul _ .nil (mem_add_left Language.nil_mem_one)))⟩
  | «while» =>
      exact ⟨_, mem_only_mul _ (mem_enclosed_mul _ zero braced)⟩
  | «do» =>
      have called := mem_yields_mul SubroutineCall.children (.own "" .nil)
        (mem_only (.symbol .semicolon))
      rw [yields_subroutineCall, mul_assoc] at called
      exact ⟨_, mem_only_mul _ called⟩
  | «return» =>
      exact ⟨_, mem_only_mul _ (mem_add_left (mem_only _))⟩

theorem leads_statementFrom {behind : Option Token → Prop}
    (first : StatementWord) :
    Leads (statementFrom first) behind
      (· = some (.keyword first.keyword)) := by
  cases first <;> exact .mul (.oneOf fun _ => rfl) .true

theorem leads_statement {behind : Option Token → Prop} :
    Leads (yields statementTrees) behind fun next =>
      (next.bind StatementWord.ofToken?).isSome := by
  rintro _ ⟨statement, rfl⟩ rest holds
  obtain ⟨first, member⟩ := exists_statementFrom statement
  rw [leads_statementFrom first _ member rest holds, Option.bind_some,
    StatementWord.ofToken?_eq_some_iff.mpr rfl]
  rfl

end Grammar

namespace Pass.Parses

variable {next : Option (Option Token)} {follow : Option Token → Prop}

/-! ## Single statements -/

theorem letStatement (scope : Scope) (room : Nat) :
    Parses next (Pass.letStatement scope room) (statementFrom .let) follow := by
  cases room with
  | zero => exact tooDeep .letStatement (exists_mem_statementFrom .let)
  | succ room =>
      have assigned : ∀ commands, Parses none
          (do
            Pass.expectSymbol .equal
            Pass.expression scope room
            Pass.expectSymbol .semicolon
            Pass.emit commands)
          assignedValue follow := by
        intro commands
        refine .mul (expectSymbol .equal) fun _ => ?_
        refine .bind (expression scope room)
          (.oneOf fun _ => EndsExpression.semicolon) fun _ => ?_
        exact .bind_nothing (expectSymbol .semicolon) fun _ => .emit _
      rw [Pass.letStatement]
      refine .within .letStatement ?_
      refine .mul (expectKeyword .let) fun _ => ?_
      refine .mul (expectName .variable) fun name => ?_
      refine require_bind scope name fun target => ?_
      refine ite_next ?_ fun found different => ?_
      · refine .left ?_ (.mul (.oneOf fun _ same => by cases same) .true)
        refine .mul (.take _) fun _ => ?_
        refine .nothing_bind (.emit _) fun _ => ?_
        refine .bind (expression scope room)
          (.mul (.oneOf fun _ => EndsExpression.rightBracket) .true)
          fun _ => ?_
        refine .mul (expectSymbol .rightBracket) fun _ => ?_
        exact .nothing_bind (.emit _) fun _ => assigned _
      · refine .right (of_unknown (assigned _)) ?_
        exact .mul (.oneOf fun _ => different.symm) .true

theorem doStatement (scope : Scope) (room : Nat) :
    Parses next (Pass.doStatement scope room) (statementFrom .do) follow := by
  cases room with
  | zero => exact tooDeep .doStatement (exists_mem_statementFrom .do)
  | succ room =>
      rw [Pass.doStatement]
      refine .within .doStatement ?_
      refine .mul (expectKeyword .do) fun _ => ?_
      refine .mul (expectName .subroutine) fun name => ?_
      refine .mul (subroutineCall name fun target =>
        expressionList scope room target) fun _ => ?_
      exact .bind_nothing (expectSymbol .semicolon) fun _ => .emit _

theorem returnStatement (scope : Scope) (room : Nat) :
    Parses next (Pass.returnStatement scope room) (statementFrom .return)
      follow := by
  cases room with
  | zero => exact tooDeep .returnStatement (exists_mem_statementFrom .return)
  | succ room =>
      rw [Pass.returnStatement]
      refine .within .returnStatement ?_
      refine .mul (expectKeyword .return) fun _ => ?_
      refine ite_next ?_ fun found different => ?_
      · refine .left ?_ (.mul (leads_expression.imp ?_) .true)
        · refine .nothing_bind (.emit _) fun _ => ?_
          exact .bind_nothing (expectSymbol .semicolon) fun _ => .emit _
        · intro _ begins
          exact begins.2.2
      · refine .right ?_ (.oneOf fun _ => different.symm)
        refine .bind (expression scope room)
          (.oneOf fun _ => EndsExpression.semicolon) fun _ => ?_
        exact .bind_nothing (expectSymbol .semicolon) fun _ => .emit _

theorem condition (scope : Scope) (room : Nat) (otherwise : String) :
    Parses next (Pass.condition scope room otherwise) conditionInParens
      follow := by
  refine .mul (expectSymbol .leftParen) fun _ => ?_
  refine .bind (expression scope room)
    (.oneOf fun _ => EndsExpression.rightParen) fun _ => ?_
  exact .bind_nothing (expectSymbol .rightParen) fun _ => .emit _

theorem braced {body : Pass Unit}
    (parts : Parses none body (yields Statements.children)
      (· = some (.symbol .rightBrace))) :
    Parses next (Pass.braced body) block follow := by
  refine .mul (expectSymbol .leftBrace) fun _ => ?_
  exact .bind parts (.oneOf fun _ => rfl) fun _ => expectSymbol .rightBrace

/-! ## Sequences of statements -/

theorem of_statementFrom {first : StatementWord} {step : Pass Unit}
    (parses : Parses (some (some (.keyword first.keyword))) step
      (statementFrom first) (· ≠ some (.keyword .else))) :
    Parses (some (some (.keyword first.keyword))) step
      (yields statementTrees) (· ≠ some (.keyword .else)) := by
  refine parses.change (fun _ => mem_statement_of_statementFrom) ?_
  rintro _ ⟨statement, rfl⟩ behind isNext ends
  obtain ⟨other, member⟩ := exists_statementFrom statement
  have same := (leads_statementFrom other : Leads _ (fun _ => True) _)
    _ member behind trivial
  rw [isNext] at same
  have words : first = other := by
    cases first <;> cases other <;> first | rfl | cases same
  rw [words]
  exact ⟨member, ends⟩

mutual

theorem statements (scope : Scope) :
    ∀ (room : Nat) {next : Option (Option Token)},
      Parses next (Pass.statements scope room) (yields Statements.children)
        (· = some (.symbol .rightBrace))
  | 0, _ => tooDeep .statements ⟨_, .nil, rfl⟩
  | room + 1, _ => by
      rw [Pass.statements, yields_statements]
      refine .within .statements ?_
      refine .repeatWhile (· ≠ some (.keyword .else))
        (· = some (.symbol .rightBrace)) leads_statement ?_ ?_ ?_ ?_ ()
      · intro token word _ selected
        rw [StatementWord.ofToken?_eq_some_iff] at selected
        subst selected
        cases word with
        | «let» => exact of_statementFrom (letStatement scope room)
        | «if» => exact of_statementFrom (ifStatement scope room)
        | «while» => exact of_statementFrom (whileStatement scope room)
        | «do» => exact of_statementFrom (doStatement scope room)
        | «return» => exact of_statementFrom (returnStatement scope room)
      · rintro _ rfl
        rfl
      · rintro _ word selected ⟨⟩
        cases selected
      · rintro _ rfl
        simp

theorem ifStatement (scope : Scope) :
    ∀ (room : Nat) {next : Option (Option Token)},
      Parses next (Pass.ifStatement scope room) (statementFrom .if)
        (· ≠ some (.keyword .else))
  | 0, _ => tooDeep .ifStatement (exists_mem_statementFrom .if)
  | room + 1, _ => by
      rw [Pass.ifStatement]
      refine .within .ifStatement ?_
      refine .mul (expectKeyword .if) fun _ => ?_
      refine .nothing_bind (.takeLabels .if) fun labels => ?_
      refine .mul (condition scope room labels.start) fun _ => ?_
      refine .mul (braced (statements scope room)) fun _ => ?_
      refine .nothing_bind (.emit _) fun _ => ?_
      refine ite_next ?_ fun found different => ?_
      · refine .right ?_ (.one fun _ ends => ends)
        refine .mul (.take _) fun _ => ?_
        exact .bind_nothing (braced (statements scope room)) fun _ =>
          .emit _
      · refine .left (.emit _) ?_
        exact .mul (.oneOf fun _ => different.symm) .true

theorem whileStatement (scope : Scope) :
    ∀ (room : Nat) {next : Option (Option Token)},
      Parses next (Pass.whileStatement scope room) (statementFrom .while)
        (· ≠ some (.keyword .else))
  | 0, _ => tooDeep .whileStatement (exists_mem_statementFrom .while)
  | room + 1, _ => by
      rw [Pass.whileStatement]
      refine .within .whileStatement ?_
      refine .mul (expectKeyword .while) fun _ => ?_
      refine .nothing_bind (.takeLabels .while) fun labels => ?_
      refine .nothing_bind (.emit _) fun _ => ?_
      refine .mul (condition scope room labels.finish) fun _ => ?_
      exact .bind_nothing (braced (statements scope room)) fun _ =>
        .emit _

end

end Pass.Parses

end JackToVm
