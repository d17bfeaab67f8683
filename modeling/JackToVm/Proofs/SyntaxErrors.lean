import JackToVm.Proofs.ClassParsing
import JackToVm.Proofs.LabelIndependence

/-!
# Syntax errors

A syntax error is found at the first token that cannot be right: the tokens
before it begin a class, those up to it begin none, and what stands behind it
is never looked at. The tokens of a class never cause a syntax error, whatever
is wrong with its names and however large it is.
-/

namespace JackToVm

open Grammar

/-- Whether a class can begin with some tokens. -/
def BeginsClass (tokens : List Token) : Prop :=
  ∃ declared : ClassDeclaration, tokens <+: declared.tokens

/-- A place is the first one at which some tokens go wrong. -/
structure IsFirstFault (tokens : List Token) (labels : LabelCounters)
    (expected : Expectation) (found : Option Token) (place : Nat) :
    Prop where
  place_le : place ≤ tokens.length
  found_eq : found = tokens[place]?
  beginsClass : BeginsClass (tokens.take place)
  not_beginsClass : place < tokens.length →
    ¬ BeginsClass (tokens.take (place + 1))
  /-- Whatever stands behind the token at fault, the error is the same. -/
  same_error : place < tokens.length → ∀ others,
    (compile (tokens.take (place + 1) ++ others) labels).1 =
      .error (.unexpected expected found)
  not_class : place = tokens.length →
    ∀ declared : ClassDeclaration, declared.tokens ≠ tokens

section

variable {tokens taken rest : List Token} {labels left : LabelCounters}
variable {cause : CompileError} {result : Except CompileError Pass.ClassHead}

theorem compile_eq_error_iff_answer :
    (compile tokens labels).1 = .error cause ↔
      Pass.answer (runPass tokens labels) = .error cause := by
  rw [compile_eq_error_iff]
  cases runPass tokens labels with
  | ok head final => simp [Pass.cause?, Pass.answer]
  | error failed final => simp [Pass.cause?, Pass.answer]

/-- The whole pass does the same where the same tokens are taken and the same
token stands behind them. -/
theorem answer_runPass (answers :
      Pass.Answers Pass.compilationUnit labels taken rest.head? result left)
    {others : List Token} (same : others.head? = rest.head?) :
    Pass.answer (runPass (taken ++ others) labels) = result :=
  (answers (.start (taken ++ others) labels) others rfl
    (PassState.rest_start _ _) same).1

/-- The tokens of a class cause no syntax error. -/
theorem isSemantic_of_compile {declared : ClassDeclaration}
    (failed : (compile declared.tokens labels).1 = .error cause) :
    cause.IsSemantic := by
  have parses : Pass.Parses none Pass.compilationUnit classDec (· = none) :=
    Pass.Parses.compilationUnit
  obtain ⟨taken, rest, result, left, cut, answers, exact⟩ :=
    parses.parsesAt labels declared.tokens fun _ unknown => by cases unknown
  have same := answer_runPass answers rfl
  rw [← cut, compile_eq_error_iff_answer.mp failed] at same
  have member : declared.tokens ∈ classDec :=
    mem_classDec_iff.mpr ⟨declared, rfl⟩
  have whole : taken ++ rest = declared.tokens ++ [] := by
    rw [← cut, List.append_nil]
  rcases exact.complete _ member [] whole rfl with
    ⟨value, succeeded, _⟩ | ⟨found, refused, semantic⟩
  · rw [succeeded] at same
    cases same
  · rw [refused] at same
    cases same
    exact semantic

theorem exists_isFirstFault {expected : Expectation} {found : Option Token}
    (failed : (compile tokens labels).1 =
      .error (.unexpected expected found)) :
    ∃ place, IsFirstFault tokens labels expected found place := by
  have parses : Pass.Parses none Pass.compilationUnit classDec (· = none) :=
    Pass.Parses.compilationUnit
  obtain ⟨taken, rest, result, left, rfl, answers, exact⟩ :=
    parses.parsesAt labels tokens fun _ unknown => by cases unknown
  have same := answer_runPass answers rfl
  rw [compile_eq_error_iff_answer.mp failed] at same
  obtain ⟨isNext, others, member⟩ :=
    exact.viable expected found same.symm
  obtain ⟨begun, spelled⟩ := mem_classDec_iff.mp member
  have again : ∀ others : List Token, others.head? = rest.head? →
      (compile (taken ++ others) labels).1 =
        .error (.unexpected expected found) := by
    intro others sameNext
    rw [compile_eq_error_iff_answer, answer_runPass answers sameNext, same]
  have noClass : ∀ others : List Token, others.head? = rest.head? →
      ∀ declared : ClassDeclaration, declared.tokens ≠ taken ++ others := by
    intro others sameNext declared whole
    have refused := again others sameNext
    rw [← whole] at refused
    cases isSemantic_of_compile refused
  have upTo : taken.length < (taken ++ rest).length →
      ∃ token, rest.head? = some token ∧
        (taken ++ rest).take (taken.length + 1) = taken ++ [token] := by
    intro inside
    cases rest with
    | nil => simp at inside
    | cons token behind =>
        refine ⟨token, rfl, ?_⟩
        rw [List.take_length_add_append]
        rfl
  refine ⟨taken.length, ?_, ?_, ?_, ?_, ?_, ?_⟩
  · simp
  · rw [isNext, List.getElem?_append_right (Nat.le_refl _), Nat.sub_self,
      List.head?_eq_getElem?]
  · refine ⟨begun, ?_⟩
    rw [List.take_left, spelled]
    exact List.prefix_append taken others
  · rintro inside ⟨declared, more, whole⟩
    obtain ⟨token, sameNext, upToToken⟩ := upTo inside
    rw [upToToken, List.append_assoc] at whole
    exact noClass ([token] ++ more) sameNext.symm declared whole.symm
  · intro inside others
    obtain ⟨token, sameNext, upToToken⟩ := upTo inside
    rw [upToToken, List.append_assoc]
    exact again ([token] ++ others) sameNext.symm
  · intro atEnd declared whole
    exact noClass rest rfl declared whole

end

/-- A syntax error is exact: it names the first token that cannot be right, and
the tokens of a class never cause one. -/
theorem compile_unexpected_exact :
    (∀ tokens labels expected found,
        (compile tokens labels).1 = .error (.unexpected expected found) →
        ∃ place, IsFirstFault tokens labels expected found place) ∧
      ∀ (declared : ClassDeclaration) labels,
        (∃ program, (compile declared.tokens labels).1 = .ok program) ∨
          ∃ cause, (compile declared.tokens labels).1 = .error cause ∧
            cause.IsSemantic := by
  constructor
  · intro tokens labels expected found failed
    exact exists_isFirstFault failed
  · intro declared labels
    cases compiled : (compile declared.tokens labels).1 with
    | ok program => exact Or.inl ⟨program, rfl⟩
    | error cause =>
        exact Or.inr ⟨cause, rfl, isSemantic_of_compile compiled⟩

/-- A class with a `return` that lacks its semicolon. -/
def unfinishedReturn : List Token :=
  [.keyword .classWord, .identifier "A", .symbol .leftBrace,
    .keyword .function, .keyword .void, .identifier "f",
    .symbol .leftParen, .symbol .rightParen, .symbol .leftBrace,
    .keyword .return, .symbol .rightBrace, .symbol .rightBrace]

theorem compile_unexpected_exact_return :
    (compile unfinishedReturn .initial).1 =
        .error (.unexpected .term (some (.symbol .rightBrace))) ∧
      ∃ place, IsFirstFault unfinishedReturn .initial .term
        (some (.symbol .rightBrace)) place := by
  have failed : (compile unfinishedReturn .initial).1 =
      .error (.unexpected .term (some (.symbol .rightBrace))) := by
    rfl
  exact ⟨failed, compile_unexpected_exact.1 _ _ _ _ failed⟩

end JackToVm
