import JackToVm.Proofs.ExpressionReading
import JackToVm.Proofs.StatementPassage

/-!
# Reading statements

A pass reads an admissible statement by the passage of that statement, if there
is room for its nodes and no `else` stands behind it. A sequence of statements
is read up to the brace that closes it.
-/

namespace JackToVm.Pass

open Passage
open DerivationTree (heightOfList)

variable {scope : Scope} {declared : List String}
variable {labels : LabelCounters} {used : NumbersUsed} {rest : List Token}
variable {room : Nat}

/-! ## Statements without statements inside -/

theorem reads_letVariable (known : scope.Declares declared)
    {target : String} {value : Expression}
    (admissible : (Statement.letVariable target value).Admissible declared)
    (height : (Statement.letVariable target value).derivation.height ≤
      room) :
    Reads (letStatement scope room) labels
      ((Statement.letVariable target value).passage scope used) rest
      () := by
  obtain ⟨resolved, found⟩ := Scope.exists_resolve? known admissible.1
  rw [Statement.passage_letVariable, Scope.write_of_resolve? found]
  cases room with
  | zero => exact absurd height (Nat.not_succ_le_zero _)
  | succ room =>
      have valueHeight : value.derivation.height ≤ room := by
        simpa [Statement.derivation] using height
      rw [letStatement]
      refine Reads.within .letStatement ?_
      refine Reads.bind (Reads.expectKeyword .let) ?_
      refine Reads.bind (Reads.expectName .variable target) ?_
      refine Reads.require found ?_
      refine Reads.ite_of_other rfl (by decide) ?_
      refine Reads.bind (Reads.expectSymbol .equal) ?_
      refine Reads.bind (reads_expression known value admissible.2
        valueHeight .semicolon) ?_
      refine Reads.bind (Reads.expectSymbol .semicolon) ?_
      exact Reads.emit _

theorem reads_letElement (known : scope.Declares declared)
    {array : String} {index value : Expression}
    (admissible :
      (Statement.letElement array index value).Admissible declared)
    (height :
      (Statement.letElement array index value).derivation.height ≤ room) :
    Reads (letStatement scope room) labels
      ((Statement.letElement array index value).passage scope used) rest
      () := by
  obtain ⟨resolved, found⟩ := Scope.exists_resolve? known admissible.1
  rw [Statement.passage_letElement, Scope.read_of_resolve? found]
  cases room with
  | zero => exact absurd height (Nat.not_succ_le_zero _)
  | succ room =>
      have heights :
          index.derivation.height ≤ room ∧
            value.derivation.height ≤ room := by
        simpa [Statement.derivation] using height
      rw [letStatement]
      refine Reads.within .letStatement ?_
      refine Reads.bind (Reads.expectKeyword .let) ?_
      refine Reads.bind (Reads.expectName .variable array) ?_
      refine Reads.require found ?_
      refine Reads.ite_of_next rfl ?_
      refine Reads.bind (Reads.advance _) ?_
      refine Reads.bind (Reads.emit _) ?_
      refine Reads.bind (reads_expression known index admissible.2.1
        heights.1 .rightBracket) ?_
      refine Reads.bind (Reads.expectSymbol .rightBracket) ?_
      refine Reads.bind (Reads.emit _) ?_
      refine Reads.bind (Reads.expectSymbol .equal) ?_
      refine Reads.bind (reads_expression known value admissible.2.2
        heights.2 .semicolon) ?_
      refine Reads.bind (Reads.expectSymbol .semicolon) ?_
      exact Reads.emit _

theorem reads_doCall (known : scope.Declares declared)
    {target : SubroutineCall}
    (admissible : (Statement.doCall target).Admissible declared)
    (height : (Statement.doCall target).derivation.height ≤ room) :
    Reads (doStatement scope room) labels
      ((Statement.doCall target).passage scope used) rest () := by
  rw [Statement.passage_doCall]
  cases room with
  | zero => exact absurd height (Nat.not_succ_le_zero _)
  | succ room =>
      have callHeight : heightOfList target.children ≤ room := by
        simpa [Statement.derivation] using height
      rw [doStatement]
      refine Reads.within .doStatement ?_
      refine Reads.bind (Reads.expectKeyword .do) ?_
      refine Reads.bind
        (Reads.expectName .subroutine target.firstName) ?_
      refine Reads.bind
        (reads_call known target admissible callHeight) ?_
      refine Reads.bind (Reads.expectSymbol .semicolon) ?_
      exact Reads.emit _

theorem reads_returnNothing
    (height : Statement.returnNothing.derivation.height ≤ room) :
    Reads (returnStatement scope room) labels
      (Statement.returnNothing.passage scope used) rest () := by
  rw [Statement.passage_returnNothing]
  cases room with
  | zero => cases height
  | succ room =>
      rw [returnStatement]
      refine Reads.within .returnStatement ?_
      refine Reads.bind (Reads.expectKeyword .return) ?_
      refine Reads.ite_of_next rfl ?_
      refine Reads.bind (Reads.emit _) ?_
      refine Reads.bind (Reads.expectSymbol .semicolon) ?_
      exact Reads.emit _

theorem reads_returnValue (known : scope.Declares declared)
    {value : Expression}
    (admissible : (Statement.returnValue value).Admissible declared)
    (height : (Statement.returnValue value).derivation.height ≤ room) :
    Reads (returnStatement scope room) labels
      ((Statement.returnValue value).passage scope used) rest () := by
  obtain ⟨token, later, tokens, begins⟩ := value.tokens_begin scope
  rw [Statement.passage_returnValue]
  cases room with
  | zero => exact absurd height (Nat.not_succ_le_zero _)
  | succ room =>
      have valueHeight : value.derivation.height ≤ room := by
        simpa [Statement.derivation] using height
      rw [returnStatement]
      refine Reads.within .returnStatement ?_
      refine Reads.bind (Reads.expectKeyword .return) ?_
      refine Reads.ite_of_next_ne ?_ ?_
      · intro closed
        simp only [concat, tokens_append, tokens_inside, tokens,
          List.cons_append, List.head?_cons, Option.some.injEq]
          at closed
        subst closed
        cases begins
      · refine Reads.bind (reads_expression known value admissible
          valueHeight .semicolon) ?_
        refine Reads.bind (Reads.expectSymbol .semicolon) ?_
        exact Reads.emit _

/-! ## Conditions and braces -/

theorem reads_condition (known : scope.Declares declared)
    {condition : Expression} {otherwise : String}
    (admissible : condition.Admissible declared)
    (height : condition.derivation.height ≤ room) :
    Reads (Pass.condition scope room otherwise) labels
      (condition.conditionPassage scope otherwise) rest () := by
  refine Reads.bind (Reads.expectSymbol .leftParen) ?_
  refine Reads.bind (reads_expression known condition admissible height
    .rightParen) ?_
  refine Reads.bind (Reads.expectSymbol .rightParen) ?_
  exact Reads.emit _

/-- One round of a sequence of statements. -/
def statement (scope : Scope) (room : Nat) (word : StatementWord)
    (_ : Unit) : Pass Unit :=
  match word with
  | .let => letStatement scope room
  | .if => ifStatement scope room
  | .while => whileStatement scope room
  | .do => doStatement scope room
  | .return => returnStatement scope room

theorem statements_succ :
    statements scope (room + 1) =
      within .statements
        (repeatWhile StatementWord.ofToken? (statement scope room)
          ()) := by
  rw [statements]
  rfl

/-- A sequence of statements is read with any room that its nodes need, up to
a closing brace. -/
def ReadsStatements (scope : Scope) (body : Statements) : Prop :=
  ∀ (room : Nat) (labels : LabelCounters) (used : NumbersUsed)
    (rest : List Token), heightOfList body.children ≤ room →
    labels.used = used → rest.head? = some (.symbol .rightBrace) →
    ReadsLoop StatementWord.ofToken? (statement scope room) labels
      (body.passage scope used) rest () ()

theorem ReadsStatements.node {body : Statements}
    (reads : ReadsStatements scope body)
    (height : heightOfList body.children < room)
    (same : labels.used = used)
    (closes : rest.head? = some (.symbol .rightBrace)) :
    Reads (statements scope room) labels
      ((body.passage scope used).inside .statements) rest () := by
  cases room with
  | zero => omega
  | succ inner =>
      rw [statements_succ]
      exact Reads.within .statements <| Reads.repeatWhile <|
        reads inner labels used rest (Nat.le_of_lt_succ height) same closes

theorem ReadsStatements.braced {body : Statements}
    (reads : ReadsStatements scope body)
    (height : heightOfList body.children < room)
    (same : labels.used = used) :
    Reads (Pass.braced (statements scope room)) labels
      (body.bracedPassage scope used) rest () := by
  have sameInside :
      (labels.advance (symbol .leftBrace).numbers).used = used := by
    simpa using same
  refine Reads.bind (Reads.expectSymbol .leftBrace) ?_
  refine Reads.bind (reads.node height sameInside rfl) ?_
  exact Reads.expectSymbol .rightBrace

/-- What follows in a sequence of statements begins with the keyword of a
statement, or closes the sequence. -/
theorem next_ne {others : Statements} {token : Token}
    (beginsNone : StatementWord.ofToken? token = none)
    (closes : rest.head? = some (.symbol .rightBrace))
    (different : token ≠ .symbol .rightBrace) :
    ((others.passage scope used).tokens ++ rest).head? ≠ some token := by
  intro next
  cases others with
  | nil =>
      rw [Statements.passage_nil, tokens_empty, List.nil_append, closes,
        Option.some.injEq] at next
      exact different next.symm
  | cons first others =>
      obtain ⟨later, tokens⟩ := first.tokens_begin scope used
      rw [Statements.passage_cons, tokens_append, tokens] at next
      obtain rfl : .keyword first.word.keyword = token :=
        Option.some.inj next
      rw [StatementWord.ofToken?_eq_some_iff.mpr rfl] at beginsNone
      cases beginsNone

/-! ## Statements with statements inside -/

theorem reads_ifThen (known : scope.Declares declared)
    {condition : Expression} {body : Statements}
    (admissible : condition.Admissible declared)
    (readsBody : ReadsStatements scope body)
    (height : (Statement.ifThen condition body).derivation.height ≤ room)
    (same : labels.used = used)
    (notElse : rest.head? ≠ some (.keyword .else)) :
    Reads (ifStatement scope room) labels
      ((Statement.ifThen condition body).passage scope used) rest () := by
  subst same
  rw [Statement.passage_ifThen]
  cases room with
  | zero => exact absurd height (Nat.not_succ_le_zero _)
  | succ room =>
      have heights :
          condition.derivation.height ≤ room ∧
            heightOfList body.children + 1 ≤ room := by
        simpa [Statement.derivation] using height
      rw [ifStatement]
      refine Reads.within .ifStatement ?_
      refine Reads.bind (Reads.expectKeyword .if) ?_
      refine Reads.bind (Reads.takeLabels .if) ?_
      simp only [LabelCounters.used_advance, numbers_leaf]
      refine Reads.bind
        (reads_condition known admissible heights.1) ?_
      refine Reads.bind (readsBody.braced heights.2 (by simp; rfl)) ?_
      refine Reads.bind (Reads.emit _) ?_
      refine Reads.ite_of_next_ne ?_ (Reads.emit _)
      exact notElse

theorem reads_ifElse (known : scope.Declares declared)
    {condition : Expression} {body otherwise : Statements}
    (admissible : condition.Admissible declared)
    (readsBody : ReadsStatements scope body)
    (readsOtherwise : ReadsStatements scope otherwise)
    (height :
      (Statement.ifElse condition body otherwise).derivation.height ≤
        room)
    (same : labels.used = used) :
    Reads (ifStatement scope room) labels
      ((Statement.ifElse condition body otherwise).passage scope used) rest
      () := by
  subst same
  rw [Statement.passage_ifElse]
  cases room with
  | zero => exact absurd height (Nat.not_succ_le_zero _)
  | succ room =>
      have heights :
          condition.derivation.height ≤ room ∧
            heightOfList body.children + 1 ≤ room ∧
              heightOfList otherwise.children + 1 ≤ room := by
        simpa [Statement.derivation] using height
      rw [ifStatement]
      refine Reads.within .ifStatement ?_
      refine Reads.bind (Reads.expectKeyword .if) ?_
      refine Reads.bind (Reads.takeLabels .if) ?_
      simp only [LabelCounters.used_advance, numbers_leaf]
      refine Reads.bind
        (reads_condition known admissible heights.1) ?_
      refine Reads.bind (readsBody.braced heights.2.1 (by simp; rfl)) ?_
      refine Reads.bind (Reads.emit _) ?_
      refine Reads.ite_of_next rfl ?_
      refine Reads.bind (Reads.advance _) ?_
      refine Reads.bind (readsOtherwise.braced heights.2.2 (by simp; rfl)) ?_
      exact Reads.emit _

theorem reads_whileLoop (known : scope.Declares declared)
    {condition : Expression} {body : Statements}
    (admissible : condition.Admissible declared)
    (readsBody : ReadsStatements scope body)
    (height :
      (Statement.whileLoop condition body).derivation.height ≤ room)
    (same : labels.used = used) :
    Reads (whileStatement scope room) labels
      ((Statement.whileLoop condition body).passage scope used) rest
      () := by
  subst same
  rw [Statement.passage_whileLoop]
  cases room with
  | zero => exact absurd height (Nat.not_succ_le_zero _)
  | succ room =>
      have heights :
          condition.derivation.height ≤ room ∧
            heightOfList body.children + 1 ≤ room := by
        simpa [Statement.derivation] using height
      rw [whileStatement]
      refine Reads.within .whileStatement ?_
      refine Reads.bind (Reads.expectKeyword .while) ?_
      refine Reads.bind (Reads.takeLabels .while) ?_
      simp only [LabelCounters.used_advance, numbers_leaf]
      refine Reads.bind (Reads.emit _) ?_
      refine Reads.bind
        (reads_condition known admissible heights.1) ?_
      refine Reads.bind (readsBody.braced heights.2 (by simp; rfl)) ?_
      exact Reads.emit _

/-! ## Every statement is read -/

mutual

theorem reads_statement (known : scope.Declares declared) :
    ∀ (one : Statement) {room : Nat} {labels : LabelCounters}
      {used : NumbersUsed} {rest : List Token},
      one.Admissible declared → one.derivation.height ≤ room →
      labels.used = used → rest.head? ≠ some (.keyword .else) →
      Reads (statement scope room one.word ()) labels
        (one.passage scope used) rest ()
  | .letVariable _ _, _, _, _, _, admissible, height, _, _ =>
      reads_letVariable known admissible height
  | .letElement _ _ _, _, _, _, _, admissible, height, _, _ =>
      reads_letElement known admissible height
  | .ifThen _ body, _, _, _, _, admissible, height, same, notElse =>
      reads_ifThen known admissible.1
        (reads_statements known body admissible.2) height same notElse
  | .ifElse _ body otherwise, _, _, _, _, admissible, height, same, _ =>
      reads_ifElse known admissible.1
        (reads_statements known body admissible.2.1)
        (reads_statements known otherwise admissible.2.2) height same
  | .whileLoop _ body, _, _, _, _, admissible, height, same, _ =>
      reads_whileLoop known admissible.1
        (reads_statements known body admissible.2) height same
  | .doCall _, _, _, _, _, admissible, height, _, _ =>
      reads_doCall known admissible height
  | .returnNothing, _, _, _, _, _, height, _, _ =>
      reads_returnNothing height
  | .returnValue _, _, _, _, _, admissible, height, _, _ =>
      reads_returnValue known admissible height

theorem reads_statements (known : scope.Declares declared) :
    ∀ (body : Statements), body.Admissible declared →
      ReadsStatements scope body
  | .nil, _ => by
      intro room labels used rest _ _ closes
      rw [Statements.passage_nil]
      refine ReadsLoop.stop ?_
      rw [closes]
      rfl
  | .cons first others, admissible => by
      intro room labels used rest height same closes
      simp only [Statements.children, heightOfList] at height
      obtain ⟨later, tokens⟩ := first.tokens_begin scope used
      have begins :
          (first.passage scope used).tokens.head?.bind
            StatementWord.ofToken? = some first.word := by
        rw [tokens]
        exact StatementWord.ofToken?_eq_some_iff.mpr rfl
      have sameBehind :
          (labels.advance (first.passage scope used).numbers).used =
            fun kind => used kind + first.count kind := by
        rw [LabelCounters.used_advance, same]
        rfl
      rw [Statements.passage_cons]
      exact ReadsLoop.again begins
        (reads_statement known first admissible.1 (by omega) same
          (next_ne rfl closes (by decide)))
        (reads_statements known others admissible.2 room _ _ rest
          (by omega) sameBehind closes)

end

end JackToVm.Pass
