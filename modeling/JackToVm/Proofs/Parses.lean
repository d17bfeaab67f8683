import JackToVm.Compilation.Class
import JackToVm.Grammar.Language
import JackToVm.Proofs.Laws

/-!
# Steps that parse a language

A step parses a language of token lists if it takes a token list of it wherever
one comes next, and otherwise finds the first token that cannot be right. The
token behind what is taken may decide where a token list ends, so a step asks
for some tokens to stand there. What a step does depends on the tokens that it
takes and on the one behind them only.

Steps that parse languages are composed to one that parses the product, as long
as what may come next is told from what must not.
-/

namespace JackToVm

open Grammar
open scoped Computability

/-- A cause that lies in the names or in the limits of the language. -/
def CompileError.IsSemantic : CompileError → Prop
  | .unresolved _ | .redeclared _ _ | .limit _ => True
  | .lexical _ | .unexpected _ _ => False

theorem CompileError.IsRule.isSemantic {cause : CompileError}
    (rule : cause.IsRule) : cause.IsSemantic := by
  cases cause with
  | unresolved name => trivial
  | redeclared name kind => trivial
  | limit reached => trivial
  | lexical error => cases rule
  | unexpected expected found => cases rule

namespace Pass

variable {α β : Type}

/-! ## Answers -/

/-- What a step yields, or why it fails. -/
def answer : EStateM.Result CompileError PassState α → Except CompileError α
  | .ok value _ => .ok value
  | .error cause _ => .error cause

theorem eq_ok_of_answer {result : EStateM.Result CompileError PassState α}
    {value : α} (answered : answer result = .ok value) :
    result = .ok value (finalState result) := by
  cases result with
  | ok found final => rw [← Except.ok.inj answered]; rfl
  | error cause final => cases answered

theorem eq_error_of_answer
    {result : EStateM.Result CompileError PassState α} {cause : CompileError}
    (answered : answer result = .error cause) :
    result = .error cause (finalState result) := by
  cases result with
  | ok found final => cases answered
  | error found final => rw [← Except.error.inj answered]; rfl

/-- What a step does wherever some label numbers are left, some tokens are
there to be taken, and a token stands behind them. -/
def Answers (step : Pass α) (labels : LabelCounters) (taken : List Token)
    (next : Option Token) (result : Except CompileError α)
    (left : LabelCounters) : Prop :=
  ∀ (before : PassState) (rest : List Token), before.labels = labels →
    before.rest = taken ++ rest → rest.head? = next →
    answer (step.run before) = result ∧
      (finalState (step.run before)).rest = rest ∧
      (finalState (step.run before)).labels = left

/-- What a step may answer that takes some tokens in front of others, if it
parses a language: a token list of the language, or a fault at the first token
that no token list of the language goes on with. -/
structure IsExact (language : Language Token) (follow : Option Token → Prop)
    (taken rest : List Token) (result : Except CompileError α) : Prop where
  member : ∀ value, result = .ok value → taken ∈ language
  viable : ∀ expected found, result = .error (.unexpected expected found) →
    found = rest.head? ∧ ∃ others, taken ++ others ∈ language
  complete : ∀ word ∈ language, ∀ behind : List Token,
    taken ++ rest = word ++ behind → follow behind.head? →
    (∃ value, result = .ok value ∧ taken = word) ∨
      ∃ cause, result = .error cause ∧ cause.IsSemantic

/-- A step parses a language where some label numbers are left and some tokens
come next. -/
def ParsesAt (step : Pass α) (language : Language Token)
    (follow : Option Token → Prop) (labels : LabelCounters)
    (tokens : List Token) : Prop :=
  ∃ taken rest result left, tokens = taken ++ rest ∧
    Answers step labels taken rest.head? result left ∧
    IsExact language follow taken rest result

/-- A step parses a language, which is not empty. If `next` is known, it is
the token that comes next. -/
structure Parses (next : Option (Option Token)) (step : Pass α)
    (language : Language Token) (follow : Option Token → Prop) : Prop where
  inhabited : ∃ word, word ∈ language
  parsesAt : ∀ labels tokens,
    (∀ found, next = some found → tokens.head? = found) →
    ParsesAt step language follow labels tokens

section

variable {next : Option (Option Token)} {language other : Language Token}
variable {follow between : Option Token → Prop}
variable {labels : LabelCounters} {tokens : List Token}

/-! ## Other languages, other steps -/

/-- A language may be replaced by another one that is the same for the tokens
that come next. -/
theorem ParsesAt.change {step : Pass α}
    (parses : ParsesAt step language follow labels tokens)
    (larger : ∀ word ∈ language, word ∈ other)
    (same : ∀ word ∈ other, ∀ behind : List Token,
      tokens = word ++ behind → between behind.head? →
      word ∈ language ∧ follow behind.head?) :
    ParsesAt step other between labels tokens := by
  obtain ⟨taken, rest, result, left, rfl, answers, exact⟩ := parses
  refine ⟨taken, rest, result, left, rfl, answers, ?_, ?_, ?_⟩
  · intro value answered
    exact larger _ (exact.member value answered)
  · intro expected found failed
    obtain ⟨isNext, others, member⟩ := exact.viable expected found failed
    exact ⟨isNext, others, larger _ member⟩
  · intro word member behind cut holds
    obtain ⟨inLanguage, follows⟩ := same word member behind cut holds
    exact exact.complete word inLanguage behind cut follows

/-- Steps that do the same in front of a token parse the same. -/
theorem ParsesAt.of_run {step changed : Pass α}
    (parses : ParsesAt step language follow labels tokens)
    (same : ∀ before : PassState, before.rest.head? = tokens.head? →
      changed.run before = step.run before) :
    ParsesAt changed language follow labels tokens := by
  obtain ⟨taken, rest, result, left, rfl, answers, exact⟩ := parses
  refine ⟨taken, rest, result, left, rfl, ?_, exact⟩
  intro before others sameLabels tokens isNext
  rw [same before (by rw [tokens, List.head?_append, isNext,
    List.head?_append])]
  exact answers before others sameLabels tokens isNext

/-! ## Steps that take nothing -/

theorem IsExact.refused {cause : CompileError} (semantic : cause.IsSemantic)
    (taken rest : List Token) :
    IsExact language follow taken rest (.error cause : Except _ α) where
  member _ answered := by cases answered
  viable expected found failed := by
    rw [Except.error.inj failed] at semantic
    cases semantic
  complete _ _ _ _ _ := Or.inr ⟨cause, rfl, semantic⟩

theorem IsExact.nothing (value : α) (rest : List Token) :
    IsExact 1 follow [] rest (.ok value) where
  member _ _ := Language.nil_mem_one
  viable _ _ failed := by cases failed
  complete word member _ _ _ := by
    rw [Language.mem_one] at member
    exact Or.inl ⟨value, rfl, member.symm⟩

/-- A step that succeeds without taking a token or a number. -/
theorem Parses.nothing {step : Pass α} {value : α}
    (run : ∀ before : PassState, ∃ behind,
      step.run before = .ok value behind ∧ behind.rest = before.rest ∧
        behind.labels = before.labels) :
    Parses next step 1 follow := by
  refine ⟨⟨[], Language.nil_mem_one⟩, ?_⟩
  intro labels tokens _
  refine ⟨[], tokens, .ok value, labels, rfl, ?_, .nothing value tokens⟩
  rintro before rest rfl cut _
  obtain ⟨behind, ran, sameRest, sameLabels⟩ := run before
  rw [ran]
  exact ⟨rfl, sameRest.trans cut, sameLabels⟩

theorem Parses.pure (value : α) : Parses next (Pure.pure value) 1 follow :=
  .nothing fun before => ⟨before, rfl, rfl, rfl⟩

theorem Parses.emit (commands : List Command) :
    Parses next (Pass.emit commands) 1 follow :=
  .nothing fun _ => ⟨_, rfl, rfl, rfl⟩

theorem Parses.finish (symbols : String × SymbolTable) :
    Parses next
      (modify fun state =>
        { state with subroutines := state.subroutines.push symbols })
      1 follow :=
  .nothing fun _ => ⟨_, rfl, rfl, rfl⟩

/-- A step that fails for a reason of names or limits parses any language. -/
theorem Parses.refuse {cause : CompileError} (semantic : cause.IsSemantic)
    (inhabited : ∃ word, word ∈ language) :
    Parses next (throw cause : Pass α) language follow := by
  refine ⟨inhabited, ?_⟩
  intro labels tokens _
  refine ⟨[], tokens, .error cause, labels, rfl, ?_,
    .refused semantic [] tokens⟩
  rintro before rest rfl cut _
  exact ⟨rfl, cut, rfl⟩

/-- A step that fails because of the next token, which begins no token list of
the language. -/
theorem Parses.unexpected {found : Option Token} {expected : Expectation}
    (inhabited : ∃ word, word ∈ language)
    (different : Leads language follow (· ≠ found)) :
    Parses (some found) (Pass.unexpected expected : Pass α) language
      follow := by
  refine ⟨inhabited, ?_⟩
  intro labels tokens isNext
  have head := isNext found rfl
  refine ⟨[], tokens, .error (.unexpected expected found), labels, rfl,
    ?_, ?_, ?_, ?_⟩
  · rintro before rest rfl cut same
    have seen : before.next? = found := by
      rw [PassState.next?_eq_head?, cut, List.nil_append, same, head]
    have run : (Pass.unexpected expected : Pass α).run before =
        .error (.unexpected expected before.next?) before := rfl
    rw [run, seen]
    exact ⟨rfl, cut, rfl⟩
  · intro _ answered
    cases answered
  · intro other seen failed
    cases failed
    exact ⟨head.symm, inhabited⟩
  · intro word member behind cut follows
    refine absurd ?_ (different word member behind follows)
    rw [← cut]
    exact head

theorem Parses.takeLabels (kind : LabelKind) :
    Parses next (Pass.takeLabels kind) 1 follow := by
  refine ⟨⟨[], Language.nil_mem_one⟩, ?_⟩
  intro labels tokens _
  cases available : labels.take? kind with
  | none =>
      have semantic : (CompileError.limit (.labels kind)).IsSemantic :=
        trivial
      refine ⟨[], tokens, .error (.limit (.labels kind)), labels, rfl, ?_,
        .refused semantic [] tokens⟩
      rintro before rest rfl cut _
      rw [run_takeLabels, available]
      exact ⟨rfl, cut, rfl⟩
  | some found =>
      obtain ⟨pair, left⟩ := found
      refine ⟨[], tokens, .ok pair, left, rfl, ?_, .nothing pair tokens⟩
      rintro before rest rfl cut _
      rw [run_takeLabels, available]
      exact ⟨rfl, cut, rfl⟩

/-! ## The next token -/

theorem Parses.advance {κ : Type} (token : κ → Token) (choice : κ) :
    Parses (some (some (token choice))) Pass.advance (oneOf token)
      follow := by
  refine ⟨⟨_, choice, rfl⟩, ?_⟩
  intro labels tokens isNext
  obtain ⟨others, rfl⟩ := List.head?_eq_some_iff.mp (isNext _ rfl)
  refine ⟨[token choice], others, .ok (), labels, rfl, ?_, ?_, ?_, ?_⟩
  · rintro before rest rfl cut _
    have run : Pass.advance.run before = .ok () before.advance := rfl
    rw [run]
    refine ⟨rfl, ?_, PassState.labels_advance before⟩
    change before.advance.rest = rest
    rw [PassState.rest_advance, cut]
    rfl
  · intro _ _
    exact ⟨choice, rfl⟩
  · intro _ _ failed
    cases failed
  · rintro word ⟨other, rfl⟩ behind cut _
    injection cut with same _
    exact Or.inl ⟨(), rfl, by rw [same]⟩

theorem Parses.take (token : Token) :
    Parses (some (some token)) Pass.advance (only token) follow :=
  .advance (fun _ => token) ()

/-- Looking at the next token takes nothing. -/
theorem Parses.peek {later : Option Token → Pass β}
    (parses : ∀ found,
      (∀ known, next = some known → known = found) →
      Parses (some found) (later found) language follow) :
    Parses next (Pass.peek >>= later) language follow := by
  constructor
  · cases next with
    | none => exact (parses none fun _ unknown => by cases unknown).inhabited
    | some known =>
        exact (parses known fun _ same => (Option.some.inj same).symm).inhabited
  · intro labels tokens isNext
    have known : ∀ known, next = some known → known = tokens.head? :=
      fun known same => (isNext known same).symm
    refine ((parses tokens.head? known).parsesAt labels tokens ?_).of_run ?_
    · intro found same
      exact Option.some.inj same
    · intro before same
      rw [run_peek_bind, PassState.next?_eq_head?, same]

/-! ## Composed steps -/

/-- A step and what is done with its value parse the product of two languages,
if the first token of the second language ends the first. -/
theorem ParsesAt.bind {step : Pass α} {later : α → Pass β}
    (parses : ParsesAt step language follow labels tokens)
    (parsesLater : ∀ value left taken rest, tokens = taken ++ rest →
      taken ∈ language → ParsesAt (later value) other between left rest)
    (inhabited : ∃ word, word ∈ other)
    (leads : Leads other between follow) :
    ParsesAt (step >>= later) (language * other) between labels tokens := by
  obtain ⟨taken, rest, result, left, rfl, answers, exact⟩ := parses
  cases result with
  | error cause =>
      refine ⟨taken, rest, .error cause, left, rfl, ?_, ?_, ?_, ?_⟩
      · intro before behind sameLabels cut isNext
        obtain ⟨answered, sameRest, sameLeft⟩ :=
          answers before behind sameLabels cut isNext
        have run : (step >>= later).run before =
            .error cause (finalState (step.run before)) := by
          rw [EStateM.run_bind, eq_error_of_answer answered]
          rfl
        rw [run]
        exact ⟨rfl, sameRest, sameLeft⟩
      · intro _ answered
        cases answered
      · intro expected found failed
        obtain ⟨isNext, others, member⟩ :=
          exact.viable expected found (by rw [Except.error.inj failed])
        obtain ⟨word, memberOther⟩ := inhabited
        refine ⟨isNext, others ++ word, ?_⟩
        rw [← List.append_assoc]
        exact Language.append_mem_mul member memberOther
      · intro word member behind cut holds
        obtain ⟨first, memberFirst, second, memberSecond, rfl⟩ :=
          Language.mem_mul.mp member
        rw [List.append_assoc] at cut
        rcases exact.complete first memberFirst (second ++ behind) cut
          (leads second memberSecond behind holds) with
          ⟨value, answered, _⟩ | ⟨found, failed, semantic⟩
        · cases answered
        · exact Or.inr ⟨found, by rw [Except.error.inj failed], semantic⟩
  | ok value =>
      have memberTaken := exact.member value rfl
      obtain ⟨more, others, result, last, rfl, answersLater, exactLater⟩ :=
        parsesLater value left taken rest rfl memberTaken
      refine ⟨taken ++ more, others, result, last,
        (List.append_assoc _ _ _).symm, ?_, ?_, ?_, ?_⟩
      · intro before behind sameLabels cut isNext
        rw [List.append_assoc] at cut
        obtain ⟨answered, sameRest, sameLeft⟩ :=
          answers before (more ++ behind) sameLabels cut (by
            rw [List.head?_append, isNext, List.head?_append])
        have run : (step >>= later).run before =
            (later value).run (finalState (step.run before)) := by
          rw [EStateM.run_bind, eq_ok_of_answer answered]
          rfl
        rw [run]
        exact answersLater _ behind sameLeft sameRest isNext
      · intro found answered
        exact Language.append_mem_mul memberTaken
          (exactLater.member found answered)
      · intro expected found failed
        obtain ⟨isNext, word, member⟩ :=
          exactLater.viable expected found failed
        refine ⟨isNext, word, ?_⟩
        rw [List.append_assoc]
        exact Language.append_mem_mul memberTaken member
      · intro word member behind cut holds
        obtain ⟨first, memberFirst, second, memberSecond, rfl⟩ :=
          Language.mem_mul.mp member
        rw [List.append_assoc, List.append_assoc] at cut
        rcases exact.complete first memberFirst (second ++ behind) cut
          (leads second memberSecond behind holds) with
          ⟨_, _, rfl⟩ | ⟨_, failed, _⟩
        · have cutLater := List.append_cancel_left cut
          rcases exactLater.complete second memberSecond behind cutLater
            holds with ⟨found, answered, rfl⟩ | refused
          · exact Or.inl ⟨found, answered, rfl⟩
          · exact Or.inr refused
        · cases failed

theorem Parses.bind [Nonempty α] {step : Pass α} {later : α → Pass β}
    (parses : Parses next step language follow)
    (leads : Leads other between follow)
    (parsesLater : ∀ value, Parses none (later value) other between) :
    Parses next (step >>= later) (language * other) between := by
  have inhabited : ∃ word, word ∈ other :=
    (parsesLater (Classical.arbitrary α)).inhabited
  obtain ⟨first, member⟩ := parses.inhabited
  obtain ⟨second, memberOther⟩ := inhabited
  refine ⟨⟨_, Language.append_mem_mul member memberOther⟩, ?_⟩
  intro labels tokens isNext
  refine (parses.parsesAt labels tokens isNext).bind ?_
    ⟨second, memberOther⟩ leads
  intro value left taken rest _ _
  exact (parsesLater value).parsesAt left rest
    fun _ unknown => by cases unknown

/-- A step may be followed by anything if what stands behind its token list
does not matter. -/
theorem Parses.mul [Nonempty α] {step : Pass α} {later : α → Pass β}
    (parses : Parses next step language fun _ => True)
    (parsesLater : ∀ value, Parses none (later value) other between) :
    Parses next (step >>= later) (language * other) between :=
  parses.bind .true parsesLater

theorem Parses.bind_nothing [Nonempty α] {step : Pass α}
    {later : α → Pass β} (parses : Parses next step language follow)
    (parsesLater : ∀ value, Parses none (later value) 1 follow) :
    Parses next (step >>= later) language follow := by
  have both := parses.bind (.one fun _ same => same) parsesLater
  rw [mul_one] at both
  exact both

theorem Parses.nothing_bind [Nonempty α] {step : Pass α}
    {later : α → Pass β} (parses : Parses next step 1 fun _ => True)
    (parsesLater : ∀ value, Parses none (later value) language follow) :
    Parses next (step >>= later) language follow := by
  have both := parses.mul parsesLater
  rw [one_mul] at both
  exact both

theorem Parses.within {body : Pass α} (node : Node)
    (parses : Parses next body language follow) :
    Parses next (Pass.within node body) language follow := by
  refine ⟨parses.inhabited, ?_⟩
  intro labels tokens isNext
  obtain ⟨taken, rest, result, left, cut, answers, exact⟩ :=
    parses.parsesAt labels tokens isNext
  refine ⟨taken, rest, result, left, cut, ?_, exact⟩
  intro before behind sameLabels cut isNext
  have inside := answers (before.enter node) behind sameLabels
    (by rw [PassState.rest_enter, cut]) isNext
  rw [run_within]
  cases run : body.run (before.enter node) with
  | ok value outside =>
      rw [run] at inside
      exact ⟨inside.1, inside.2.1, inside.2.2⟩
  | error cause outside =>
      rw [run] at inside
      exact inside

end

/-! ## Repetitions -/

section Repetitions

variable {next : Option (Option Token)} {wanted : Token → Option α}
variable {body : α → β → Pass β} {round : Language Token}
variable {inside follow : Option Token → Prop}

/-- Every round of a repetition leaves fewer tokens. -/
def Shortens (wanted : Token → Option α) (body : α → β → Pass β) : Prop :=
  ∀ choice initial before value between,
    before.next?.bind wanted = some choice →
    (body choice initial).run before = .ok value between →
    between.rest.length < before.rest.length

/-- There is no difference between counts that are large enough. -/
theorem run_repeatAtMost_eq (shortens : Shortens wanted body) :
    ∀ {count other : Nat} {initial : β} {before : PassState},
      before.rest.length ≤ count → before.rest.length ≤ other →
      (repeatAtMost wanted body count initial).run before =
        (repeatAtMost wanted body other initial).run before := by
  intro count
  induction count with
  | zero =>
      intro other initial before enough _
      have atEnd : before.next? = none := by
        rw [PassState.next?_eq_head?, List.eq_nil_of_length_eq_zero
          (Nat.le_zero.mp enough)]
        rfl
      cases other with
      | zero => rfl
      | succ other =>
          rw [repeatAtMost, repeatAtMost, run_peek_bind, atEnd]
          rfl
  | succ count inductionHypothesis =>
      intro other initial before enough enoughOther
      cases other with
      | zero =>
          have atEnd : before.next? = none := by
            rw [PassState.next?_eq_head?, List.eq_nil_of_length_eq_zero
              (Nat.le_zero.mp enoughOther)]
            rfl
          rw [repeatAtMost, repeatAtMost, run_peek_bind, atEnd]
          rfl
      | succ other =>
          rw [repeatAtMost, repeatAtMost, run_peek_bind, run_peek_bind]
          cases begins : before.next?.bind wanted with
          | none => rfl
          | some choice =>
              dsimp only
              rw [EStateM.run_bind, EStateM.run_bind]
              cases ran : (body choice initial).run before with
              | error cause between => rfl
              | ok value between =>
                  have shorter := shortens _ _ _ _ _ begins ran
                  exact inductionHypothesis (by omega) (by omega)

/-- A repetition is no round, or one round and the repetition behind it. -/
theorem run_repeatWhile (shortens : Shortens wanted body) (initial : β)
    (before : PassState) :
    (repeatWhile wanted body initial).run before =
      match before.next?.bind wanted with
      | some choice =>
          (body choice initial >>= repeatWhile wanted body).run before
      | none => .ok initial before := by
  have unfolded : ∀ (result : β) (state : PassState),
      (repeatWhile wanted body result).run state =
        (repeatAtMost wanted body state.remaining result).run state :=
    fun _ _ => rfl
  have more : (repeatAtMost wanted body before.remaining initial).run
      before = (repeatAtMost wanted body (before.remaining + 1) initial).run
        before :=
    run_repeatAtMost_eq shortens before.length_rest.le
      (before.length_rest.le.trans (Nat.le_succ _))
  rw [unfolded, more, repeatAtMost, run_peek_bind]
  cases begins : before.next?.bind wanted with
  | none => rfl
  | some choice =>
      dsimp only
      rw [EStateM.run_bind, EStateM.run_bind]
      cases ran : (body choice initial).run before with
      | error cause between => rfl
      | ok value between =>
          have shorter := shortens _ _ _ _ _ begins ran
          rw [before.length_rest] at shorter
          exact run_repeatAtMost_eq shortens shorter.le
            between.length_rest.le

variable (begins : Leads round (fun _ => True)
  (fun next => (next.bind wanted).isSome))
variable (parts : ∀ token choice result, wanted token = some choice →
  Parses (some (some token)) (body choice result) round inside)

include begins

theorem ne_nil_of_begins {word : List Token} (member : word ∈ round) :
    word ≠ [] := by
  rintro rfl
  have first := begins [] member [] trivial
  cases first

include parts

/-- A round that parses token lists with a token in them takes a token. -/
theorem shortens_of_parses : Shortens wanted body := by
  intro choice initial before value between selected ran
  obtain ⟨token, isNext, chosen⟩ := Option.bind_eq_some_iff.mp selected
  rw [PassState.next?_eq_head?] at isNext
  obtain ⟨taken, rest, result, left, cut, answers, exact⟩ :=
    (parts token choice initial chosen).parsesAt before.labels before.rest
      (fun _ same => (Option.some.inj same) ▸ isNext)
  obtain ⟨answered, sameRest, _⟩ := answers before rest rfl cut rfl
  rw [ran] at answered sameRest
  have member := exact.member value answered.symm
  have positive := List.length_pos_iff.mpr (ne_nil_of_begins begins member)
  change between.rest = rest at sameRest
  rw [cut, sameRest, List.length_append]
  omega

theorem parsesAt_repeatWhile
    (ends : ∀ next, follow next → next.bind wanted = none)
    (goesOn : ∀ token choice, wanted token = some choice →
      inside (some token))
    (stops : ∀ next, follow next → inside next)
    (initial : β) (labels : LabelCounters) (tokens : List Token) :
    ParsesAt (repeatWhile wanted body initial) round∗ follow labels
      tokens := by
  have run := run_repeatWhile (shortens_of_parses begins parts) initial
  have unrolled : ∀ word ∈ round∗, word = [] ∨ word ∈ round * round∗ := by
    intro word member
    rw [← Language.one_add_self_mul_kstar_eq_kstar] at member
    exact (Language.mem_add _ _ word).mp member
  cases selected : tokens.head?.bind wanted with
  | none =>
      have stops : ParsesAt (Pure.pure initial) 1 follow labels tokens :=
        (Parses.pure initial : Parses none _ _ _).parsesAt labels tokens
          fun _ unknown => by cases unknown
      refine (stops.change ?_ ?_).of_run ?_
      · intro word member
        rw [Language.mem_one] at member
        rw [member]
        exact Language.nil_mem_kstar round
      · intro word member behind cut follows
        refine ⟨?_, follows⟩
        rcases unrolled word member with none | rounds
        · exact none
        · have again : Leads (round * round∗) follow
              (fun next => (next.bind wanted).isSome) :=
            .mul begins .true
          have isNext := again word rounds behind follows
          rw [← cut, selected] at isNext
          cases isNext
      · intro before same
        rw [run, PassState.next?_eq_head?, same, selected]
        rfl
  | some choice =>
      obtain ⟨token, isNext, chosen⟩ := Option.bind_eq_some_iff.mp selected
      have first := (parts token choice initial chosen).parsesAt labels
        tokens fun _ same => (Option.some.inj same) ▸ isNext
      have ended : Leads round∗ follow inside := by
        refine .kstar (begins.imp ?_) stops
        intro next begun
        obtain ⟨other, selected⟩ := Option.isSome_iff_exists.mp begun
        obtain ⟨token, rfl, chosen⟩ := Option.bind_eq_some_iff.mp selected
        exact goesOn token other chosen
      -- a round takes a token, so the rounds behind it have fewer tokens left
      have rounds := first.bind
        (fun value left taken rest cut member =>
          have positive :=
            List.length_pos_iff.mpr (ne_nil_of_begins begins member)
          have shorter : rest.length < tokens.length := by
            rw [cut, List.length_append]
            omega
          parsesAt_repeatWhile ends goesOn stops value left rest)
        ⟨[], Language.nil_mem_kstar round⟩ ended
      refine (rounds.change ?_ ?_).of_run ?_
      · intro word member
        rw [← Language.one_add_self_mul_kstar_eq_kstar]
        exact (Language.mem_add _ _ word).mpr (Or.inr member)
      · intro word member behind cut follows
        refine ⟨?_, follows⟩
        rcases unrolled word member with rfl | rounds
        · rw [List.nil_append] at cut
          rw [← cut] at follows
          rw [ends _ follows] at selected
          cases selected
        · exact rounds
      · intro before same
        rw [run, PassState.next?_eq_head?, same, selected]
termination_by tokens.length
decreasing_by exact shorter

variable (inside follow) in
theorem Parses.repeatWhile
    (ends : ∀ next, follow next → next.bind wanted = none)
    (goesOn : ∀ token choice, wanted token = some choice →
      inside (some token))
    (stops : ∀ next, follow next → inside next)
    (initial : β) :
    Parses next (Pass.repeatWhile wanted body initial) round∗ follow where
  inhabited := ⟨[], Language.nil_mem_kstar round⟩
  parsesAt labels tokens _ :=
    parsesAt_repeatWhile begins parts ends goesOn stops initial labels
      tokens

end Repetitions

end Pass

end JackToVm
