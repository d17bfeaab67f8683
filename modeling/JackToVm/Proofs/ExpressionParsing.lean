import JackToVm.Proofs.ExpressionReading
import JackToVm.Proofs.ParsedTokens

/-!
# Parsing expressions

The languages of expressions, terms and arguments are composed of those of
their parts in the order in which a pass reads them: an expression is a term
with operators and terms behind it. The compiler of expressions parses these
languages, whatever room is left. A term is at its end in front of a token that
makes nothing more of a name, and an expression is in front of one that is no
operator either.
-/

namespace JackToVm

open Grammar
open scoped Computability
open DerivationTree (yieldOfList)

namespace Grammar

/-! ## Languages of expressions -/

/-- A binary operator. -/
abbrev binaryOperator : Language Token :=
  oneOf fun operator : BinaryOperator => .symbol operator.symbol

abbrev name : Language Token :=
  oneOf Token.identifier

theorem mem_operations (expression : Expression) :
    yieldOfList expression.children ∈
      yields Term.children * (binaryOperator * yields Term.children)∗ := by
  cases expression with
  | term only =>
      have term : yieldOfList (Expression.term only).children =
          yieldOfList only.children ++ [] := by
        simp [Expression.children]
      rw [term]
      exact Language.append_mem_mul ⟨only, rfl⟩ (Language.nil_mem_kstar _)
  | binary left operator right =>
      have cut : yieldOfList (Expression.binary left operator right).children =
          yieldOfList left.children ++
            ([.symbol operator.symbol] ++ yieldOfList right.children) := by
        simp [Expression.children, DerivationTree.yieldOfList_append]
      have again : yields Term.children *
            (binaryOperator * yields Term.children)∗ *
            (binaryOperator * yields Term.children) ≤
          yields Term.children *
            (binaryOperator * yields Term.children)∗ := by
        rw [mul_assoc]
        exact mul_le_mul_right kstar_mul_le_kstar _
      rw [cut]
      exact again (Language.append_mem_mul (mem_operations left)
        (Language.append_mem_mul ⟨operator, rfl⟩ ⟨right, rfl⟩))

/-- An expression is a term with operators and terms behind it. -/
theorem yields_expression :
    yields Expression.children =
      yields Term.children * (binaryOperator * yields Term.children)∗ := by
  apply le_antisymm
  · rintro _ ⟨expression, rfl⟩
    exact mem_operations expression
  · apply mul_kstar_le
    · rintro _ ⟨only, rfl⟩
      refine ⟨.term only, ?_⟩
      simp [Expression.children]
    · intro word member
      obtain ⟨_, ⟨left, rfl⟩, _, operation, rfl⟩ :=
        Language.mem_mul.mp member
      obtain ⟨_, ⟨operator, rfl⟩, _, ⟨right, rfl⟩, rfl⟩ :=
        Language.mem_mul.mp operation
      refine ⟨.binary left operator right, ?_⟩
      simp [Expression.children, DerivationTree.yieldOfList_append]

/-- An expression behind a comma. -/
abbrev otherArgument : Language Token :=
  only (.symbol .comma) * yields Expression.children

theorem mem_continued (list : ExpressionList) :
    yieldOfList list.continued ∈ otherArgument∗ := by
  cases list with
  | nil => exact Language.nil_mem_kstar _
  | cons first others =>
      have argument : .symbol .comma :: yieldOfList first.children ∈
          otherArgument :=
        mem_only_mul _ (mem_yields _ first)
      have row := append_mem_kstar argument (mem_continued others)
      exact row

/-- The arguments of a call behind the first one. -/
theorem yields_continued :
    yields ExpressionList.continued = otherArgument∗ := by
  apply yields_eq_kstar mem_continued ⟨.nil, rfl⟩
  rintro _ member _ ⟨others, rfl⟩
  obtain ⟨_, _, ⟨argument, rfl⟩, rfl⟩ := mem_oneOf_mul_iff.mp member
  exact ⟨.cons argument others, rfl⟩

/-- The arguments of a call: none, or some with commas between them. -/
theorem yields_expressionList :
    yields ExpressionList.children =
      1 + yields Expression.children * otherArgument∗ := by
  rw [← yields_continued]
  ext word
  rw [Language.mem_add, Language.mem_one]
  constructor
  · rintro ⟨list, rfl⟩
    cases list with
    | nil => exact Or.inl rfl
    | cons first others =>
        exact Or.inr (Language.append_mem_mul ⟨first, rfl⟩ ⟨others, rfl⟩)
  · rintro (rfl | member)
    · exact ⟨.nil, rfl⟩
    · obtain ⟨_, ⟨first, rfl⟩, _, ⟨others, rfl⟩, rfl⟩ :=
        Language.mem_mul.mp member
      exact ⟨.cons first others, rfl⟩

/-! ## Languages of calls and terms -/

/-- The arguments of a call between their parentheses. -/
abbrev givenArguments : Language Token :=
  enclosed (.symbol .leftParen) (.symbol .rightParen) ExpressionList.children

/-- What makes a call of the name in front of it. -/
abbrev callBehindName : Language Token :=
  (1 + only (.symbol .dot) * name) * givenArguments

theorem yields_subroutineCall :
    yields SubroutineCall.children = name * callBehindName := by
  ext word
  constructor
  · rintro ⟨call, rfl⟩
    cases call with
    | own called arguments =>
        have target : [] ∈ 1 + only (.symbol .dot) * name :=
          mem_add_left Language.nil_mem_one
        have given : _ ∈ givenArguments :=
          mem_enclosed ExpressionList.children arguments
        have behind := Language.append_mem_mul target given
        exact mem_oneOf_mul _ called behind
    | through owner called arguments =>
        have target : [.symbol .dot, .identifier called] ∈
            1 + only (.symbol .dot) * name :=
          mem_add_right (mem_only_mul _ ⟨called, rfl⟩)
        have given : _ ∈ givenArguments :=
          mem_enclosed ExpressionList.children arguments
        have behind := Language.append_mem_mul target given
        exact mem_oneOf_mul _ owner behind
  · intro member
    obtain ⟨first, _, behind, rfl⟩ := mem_oneOf_mul_iff.mp member
    obtain ⟨_, target, _, given, rfl⟩ := Language.mem_mul.mp behind
    obtain ⟨arguments, rfl⟩ := mem_enclosed_iff.mp given
    rcases (Language.mem_add ..).mp target with none | dotted
    · rw [Language.mem_one] at none
      subst none
      exact ⟨.own first arguments, rfl⟩
    · obtain ⟨_, _, ⟨called, rfl⟩, rfl⟩ := mem_oneOf_mul_iff.mp dotted
      exact ⟨.through first called arguments, rfl⟩

/-- An index behind the name of an array. -/
abbrev indexBehindName : Language Token :=
  enclosed (.symbol .leftBracket) (.symbol .rightBracket) Expression.children

/-- What a term that begins with a name goes on with. -/
abbrev behindName : Language Token :=
  1 + (indexBehindName + callBehindName)

/-- The terms that begin with a token, if there are any. -/
def termFrom : Token → Language Token
  | .integer _ => oneOf Token.integer
  | .string _ => oneOf Token.string
  | .keyword _ => oneOf fun word : KeywordConstant => .keyword word.keyword
  | .identifier _ => name * behindName
  | .symbol .leftParen =>
      enclosed (.symbol .leftParen) (.symbol .rightParen)
        Expression.children
  | .symbol _ =>
      (oneOf fun operator : UnaryOperator => .symbol operator.symbol) *
        yields Term.children

theorem termFrom_symbol {sign : Symbol} (other : sign ≠ .leftParen) :
    termFrom (.symbol sign) =
      (oneOf fun operator : UnaryOperator => .symbol operator.symbol) *
        yields Term.children := by
  cases sign with
  | leftParen => exact absurd rfl other
  | _ => rfl

theorem mem_term_of_name {word : List Token}
    (member : word ∈ name * behindName) : word ∈ yields Term.children := by
  obtain ⟨first, _, behind, rfl⟩ := mem_oneOf_mul_iff.mp member
  rcases (Language.mem_add ..).mp behind with none | more
  · rw [Language.mem_one] at none
    subst none
    exact ⟨.variable first, rfl⟩
  rcases (Language.mem_add ..).mp more with indexed | called
  · obtain ⟨index, rfl⟩ := mem_enclosed_iff.mp indexed
    exact ⟨.element first index, rfl⟩
  · have whole := mem_oneOf_mul Token.identifier first called
    rw [← yields_subroutineCall] at whole
    obtain ⟨call, same⟩ := whole
    exact ⟨.call call, same⟩

theorem mem_term_of_termFrom {first : Token} {word : List Token}
    (member : word ∈ termFrom first) : word ∈ yields Term.children := by
  cases first with
  | integer _ =>
      obtain ⟨value, rfl⟩ := member
      exact ⟨.integer value, rfl⟩
  | string _ =>
      obtain ⟨content, rfl⟩ := member
      exact ⟨.string content, rfl⟩
  | keyword _ =>
      obtain ⟨constant, rfl⟩ := member
      exact ⟨.constant constant, rfl⟩
  | identifier _ => exact mem_term_of_name member
  | symbol sign =>
      by_cases opening : sign = .leftParen
      · subst opening
        obtain ⟨inner, rfl⟩ := mem_enclosed_iff.mp member
        exact ⟨.group inner, rfl⟩
      · rw [termFrom_symbol opening] at member
        obtain ⟨operator, _, ⟨operand, rfl⟩, rfl⟩ :=
          mem_oneOf_mul_iff.mp member
        refine ⟨.unary operator operand, ?_⟩
        simp [Term.children]

/-- A term is one of those that begin with its first token. -/
theorem exists_termFrom (term : Term) :
    ∃ first rest, yieldOfList term.children = first :: rest ∧
      yieldOfList term.children ∈ termFrom first := by
  cases term with
  | integer value => exact ⟨_, _, rfl, value, rfl⟩
  | string content => exact ⟨_, _, rfl, content, rfl⟩
  | constant word => exact ⟨_, _, rfl, word, rfl⟩
  | «variable» first =>
      refine ⟨_, _, rfl, ?_⟩
      exact mem_oneOf_mul _ first (mem_add_left Language.nil_mem_one)
  | element array index =>
      have indexed : _ ∈ indexBehindName :=
        mem_enclosed Expression.children index
      exact ⟨_, _, rfl,
        mem_oneOf_mul _ array (mem_add_right (mem_add_left indexed))⟩
  | call target =>
      have whole : yieldOfList target.children ∈ name * callBehindName := by
        rw [← yields_subroutineCall]
        exact ⟨target, rfl⟩
      obtain ⟨first, rest, member, same⟩ := mem_oneOf_mul_iff.mp whole
      have spelled : yieldOfList (Term.call target).children =
          .identifier first :: rest := same.symm
      rw [spelled]
      refine ⟨_, _, rfl, ?_⟩
      exact mem_oneOf_mul _ first (mem_add_right (mem_add_right member))
  | group inner =>
      exact ⟨_, _, rfl, mem_enclosed Expression.children inner⟩
  | unary operator operand =>
      have other : operator.symbol ≠ .leftParen := by
        cases operator <;> decide
      refine ⟨_, _, rfl, ?_⟩
      rw [termFrom_symbol other]
      have spelled : yieldOfList (Term.unary operator operand).children =
          .symbol operator.symbol :: yieldOfList operand.children := by
        simp [Term.children]
      rw [spelled]
      exact mem_oneOf_mul (fun operator : UnaryOperator =>
        .symbol operator.symbol) operator ⟨operand, rfl⟩

end Grammar

/-! ## What begins and ends them -/

/-- There is a token, and none that closes something. -/
def BeginsTerm (next : Option Token) : Prop :=
  next ≠ none ∧ next ≠ some (.symbol .rightParen) ∧
    next ≠ some (.symbol .semicolon)

theorem leads_term {behind : Option Token → Prop} :
    Leads (yields Term.children) behind BeginsTerm := by
  rintro _ ⟨term, rfl⟩ rest _
  obtain ⟨first, others, spelled, member⟩ := exists_termFrom term
  rw [spelled] at member ⊢
  refine ⟨by simp, ?_, ?_⟩
  all_goals
    rintro ⟨⟩
    obtain ⟨operator, _, _, same⟩ := mem_oneOf_mul_iff.mp member
    cases operator <;> cases same

theorem leads_expression {behind : Option Token → Prop} :
    Leads (yields Expression.children) behind BeginsTerm := by
  rw [yields_expression]
  exact .mul leads_term .true

theorem leads_index {behind : Option Token → Prop} :
    Leads indexBehindName behind (· = some (.symbol .leftBracket)) :=
  .mul (.oneOf fun _ => rfl) .true

theorem leads_call {behind : Option Token → Prop} :
    Leads callBehindName behind fun next =>
      next = some (.symbol .leftParen) ∨ next = some (.symbol .dot) := by
  have given : Leads givenArguments behind
      (· = some (.symbol .leftParen)) :=
    .mul (.oneOf fun _ => rfl) .true
  refine .mul (.add (.one fun _ => Or.inl) ?_) given
  exact .mul (.oneOf fun _ => Or.inr rfl) .true

namespace Pass.Parses

variable {next : Option (Option Token)} {follow : Option Token → Prop}

/-! ## Calls -/

theorem callTarget (scope : Scope) (name : String) :
    Parses next (Pass.callTarget scope name)
      (1 + only (.symbol .dot) * Grammar.name)
      (· ≠ some (.symbol .dot)) := by
  refine ite_next ?_ fun found different => ?_
  · refine .right ?_ (.one fun _ other => other)
    refine .mul (.take _) fun _ => ?_
    refine .bind_nothing (expectName .subroutine) fun subroutine => ?_
    cases scope.resolve? name with
    | some receiver => exact .bind_nothing (.emit _) fun _ => .pure _
    | none => exact .pure _
  · refine .left ?_ ?_
    · exact .bind_nothing (.emit _) fun _ => .pure _
    · exact .mul (.oneOf fun _ => different.symm) .true

theorem subroutineCall {scope : Scope} {arguments : String → Pass Nat}
    (name : String)
    (parts : ∀ target, Parses none (arguments target)
      (yields ExpressionList.children)
      (· = some (.symbol .rightParen))) :
    Parses next (Pass.subroutineCall scope arguments name) callBehindName
      follow := by
  refine .bind (callTarget scope name) ?_ fun found => ?_
  · exact .mul (.oneOf fun _ => by simp) .true
  refine .mul (expectSymbol .leftParen) fun _ => ?_
  refine .bind (parts found.1) (.oneOf fun _ => rfl) fun count => ?_
  refine .bind_nothing (expectSymbol .rightParen) fun _ => ?_
  exact .nothing_bind (addArguments found.1 count found.2) fun _ =>
    .emit _

/-! ## Terms and expressions -/

theorem of_termFrom {first : Token} {step : Pass Unit}
    (parses : Parses (some (some first)) step (termFrom first) EndsTerm) :
    Parses (some (some first)) step (yields Term.children) EndsTerm := by
  refine parses.change (fun _ => mem_term_of_termFrom) ?_
  rintro _ ⟨term, rfl⟩ behind isNext ends
  obtain ⟨other, rest, spelled, member⟩ := exists_termFrom term
  rw [spelled] at isNext
  cases isNext
  exact ⟨member, ends⟩

mutual

theorem expression (scope : Scope) :
    ∀ (room : Nat) {next : Option (Option Token)},
      Parses next (Pass.expression scope room) (yields Expression.children)
        EndsExpression
  | 0, _ => tooDeep .expression ⟨_, .term (.integer 0), rfl⟩
  | room + 1, _ => by
      rw [Pass.expression, yields_expression]
      refine .within .expression ?_
      have begins : Leads (binaryOperator * yields Term.children)
          (fun _ => True)
          (fun next => (next.bind Token.binaryOperator?).isSome) :=
        .mul (.oneOf fun operator => by
          rw [Option.bind_some, operator.selected]
          rfl) .true
      refine .bind (term scope room) ?_ fun _ => ?_
      · refine .kstar ?_ fun _ ends => ends.1
        exact .mul (.oneOf fun operator => operator.endsTerm) .true
      · refine .repeatWhile EndsTerm EndsExpression begins ?_
          (fun _ ends => ends.2) ?_ (fun _ ends => ends.1) ()
        · intro token operator _ selected
          rw [Token.binaryOperator?_eq_some_iff] at selected
          subst selected
          refine .mul (.advance (fun operator : BinaryOperator =>
            .symbol operator.symbol) operator) fun _ => ?_
          exact .bind_nothing (term scope room) fun _ => .emit _
        · intro token operator selected
          rw [Token.binaryOperator?_eq_some_iff] at selected
          subst selected
          exact operator.endsTerm

theorem term (scope : Scope) :
    ∀ (room : Nat) {next : Option (Option Token)},
      Parses next (Pass.term scope room) (yields Term.children) EndsTerm
  | 0, _ => by
      rw [Pass.term]
      refine .peek fun found _ => ?_
      cases found with
      | none =>
          -- the missing term is told before the missing room
          refine .bind_nothing ?_ fun _ =>
            tooDeep .term ⟨[], Language.nil_mem_one⟩
          exact .unexpected ⟨_, .integer 0, rfl⟩
            (leads_term.imp fun _ begins => begins.1)
      | some token => exact tooDeep .term ⟨_, .integer 0, rfl⟩
  | room + 1, _ => by
      rw [Pass.term]
      refine .peek fun found _ => ?_
      cases found with
      | none =>
          exact .unexpected ⟨_, .integer 0, rfl⟩
            (leads_term.imp fun _ begins => begins.1)
      | some first =>
          refine .within .term (of_termFrom ?_)
          cases first with
          | integer value =>
              exact .bind_nothing (.advance Token.integer value)
                fun _ => .emit _
          | string text =>
              refine .bind_nothing (.advance Token.string text) fun _ => ?_
              by_cases short : text.utf8ByteSize ≤ maxCount
              · rw [if_pos short]
                exact .emit _
              · rw [if_neg short]
                exact .refuse trivial ⟨[], Language.nil_mem_one⟩
          | keyword reserved =>
              dsimp only
              cases selected : KeywordConstant.ofKeyword? reserved with
              | none =>
                  refine .unexpected ⟨_, .null, rfl⟩ (.oneOf ?_)
                  intro constant same
                  cases same
                  rw [constant.selected] at selected
                  cases selected
              | some constant =>
                  rw [KeywordConstant.ofKeyword?_eq_some_iff] at selected
                  subst selected
                  exact .bind_nothing
                    (.advance (fun word : KeywordConstant =>
                      .keyword word.keyword) constant)
                    fun _ => .emit _
          | symbol sign =>
              by_cases opening : sign = .leftParen
              · subst opening
                refine .mul (.take _) fun _ => ?_
                exact .bind (expression scope room)
                  (.oneOf fun _ => EndsExpression.rightParen)
                  fun _ => expectSymbol .rightParen
              · rw [termFrom_symbol opening]
                simp only
                cases selected : sign.unaryOperator? with
                | none =>
                    refine .unexpected
                      ⟨_, mem_oneOf_mul _ .not ⟨.integer 0, rfl⟩⟩
                      (.mul (.oneOf fun operator same => ?_) .true)
                    cases same
                    rw [Symbol.unaryOperator?_eq_some_iff.mpr rfl]
                      at selected
                    cases selected
                | some operator =>
                    rw [Symbol.unaryOperator?_eq_some_iff] at selected
                    subst selected
                    refine .mul (.advance (fun operator : UnaryOperator =>
                      .symbol operator.symbol) operator) fun _ => ?_
                    exact .bind_nothing (term scope room) fun _ => .emit _
          | identifier name =>
              refine .mul (.advance Token.identifier name) fun _ => ?_
              refine .peek fun found _ => ?_
              have called : Parses none
                  (Pass.subroutineCall scope
                    (Pass.expressionList scope room) name)
                  callBehindName EndsTerm :=
                subroutineCall name fun target =>
                  expressionList scope room target
              split
              next =>
                refine .right (.left ?_ (leads_call.imp ?_))
                  (.one fun _ ends => ends.1)
                · refine require_bind scope name fun array => ?_
                  refine .mul (.take _) fun _ => ?_
                  refine .nothing_bind (.emit _) fun _ => ?_
                  refine .bind (expression scope room)
                    (.oneOf fun _ => EndsExpression.rightBracket)
                    fun _ => ?_
                  exact .bind_nothing (expectSymbol .rightBracket)
                    fun _ => .emit _
                · rintro _ (rfl | rfl) <;> simp
              next =>
                refine .right (.right (of_unknown called)
                  (leads_index.imp ?_)) (.one fun _ ends => ends.2.1)
                rintro _ rfl
                simp
              next =>
                refine .right (.right (of_unknown called)
                  (leads_index.imp ?_)) (.one fun _ ends => ends.2.2)
                rintro _ rfl
                simp
              next notBracket notParen notDot =>
                refine .left ?_ (.add (leads_index.imp ?_)
                  (leads_call.imp ?_))
                · exact require_bind scope name fun resolved => .emit _
                · rintro _ rfl same
                  exact notBracket same.symm
                · rintro _ (rfl | rfl) same
                  · exact notParen same.symm
                  · exact notDot same.symm

theorem expressionList (scope : Scope) :
    ∀ (room : Nat) (target : String) {next : Option (Option Token)},
      Parses next (Pass.expressionList scope room target)
        (yields ExpressionList.children) (· = some (.symbol .rightParen))
  | 0, _, _ => tooDeep .expressionList ⟨_, .nil, rfl⟩
  | room + 1, target, _ => by
      rw [Pass.expressionList, yields_expressionList]
      refine .within .expressionList ?_
      refine ite_next ?_ fun found different => ?_
      · refine .left (.pure 0) ?_
        exact .mul (leads_expression.imp fun _ begins => begins.2.1) .true
      · refine .right ?_ (.one fun next closes => ?_)
        · have argument : ∀ count, Parses none
              (do
                Pass.expression scope room
                Pass.addArguments target count 1)
              (yields Expression.children) EndsExpression :=
            fun count => .bind_nothing (expression scope room) fun _ =>
              addArguments target count 1
          refine of_unknown (commaSeparated 0 argument ?_
            EndsExpression.comma ?_)
          · rintro _ rfl
            simp
          · rintro _ rfl
            exact EndsExpression.rightParen
        · rw [closes]
          exact different.symm

end

end Pass.Parses

end JackToVm
