import JackToVm.Proofs.Steps

/-!
# Composing what a pass reads

`Reads step labels passage rest result` says that `step` succeeds with `result`
wherever the tokens of `passage` come next, `rest` stands behind them, and the
numbers that the passage takes are left behind `labels`. The rules follow the
shape of the steps: one for a sequence, one for a node, one for each way a
repetition goes on.
-/

namespace JackToVm.Pass

variable {α β : Type}
variable {labels : LabelCounters} {rest : List Token}

/-- A step succeeds by a passage, if it can be made. -/
def Reads (step : Pass α) (labels : LabelCounters) (passage : Passage)
    (rest : List Token) (result : α) : Prop :=
  ∀ before behind : PassState, passage.Connects before behind →
    before.labels = labels → behind.rest = rest →
    step.run before = .ok result behind

namespace Reads

/-! ## Small steps -/

theorem pure (result : α) :
    Reads (Pure.pure result) labels .empty rest result := by
  intro before behind connects _ _
  rw [connects.behind_eq, PassState.after_empty]
  rfl

theorem advance (token : Token) :
    Reads Pass.advance labels (.leaf token) rest () := by
  intro before behind connects _ _
  exact (advance_eq_ok_iff connects.next?_eq).mpr connects

theorem emit (commands : List Command) :
    Reads (Pass.emit commands) labels (.emitted commands) rest () :=
  fun _ _ connects _ _ => emit_eq_ok_iff.mpr connects

theorem expectKeyword (reserved : Keyword) :
    Reads (Pass.expectKeyword reserved) labels (.leaf (.keyword reserved))
      rest () :=
  fun _ _ connects _ _ => expectKeyword_eq_ok_iff.mpr connects

theorem expectSymbol (sign : Symbol) :
    Reads (Pass.expectSymbol sign) labels (.leaf (.symbol sign)) rest () :=
  fun _ _ connects _ _ => expectSymbol_eq_ok_iff.mpr connects

theorem expectName (role : NameRole) (name : String) :
    Reads (Pass.expectName role) labels (.leaf (.identifier name)) rest
      name :=
  fun _ _ connects _ _ => expectName_eq_ok_iff.mpr connects

theorem expectType (type : TypeName) :
    Reads Pass.expectType labels (.leaf type.token) rest type :=
  fun _ _ connects _ _ => expectType_eq_ok_iff.mpr connects

theorem takeLabels (kind : LabelKind) :
    Reads (Pass.takeLabels kind) labels (.numbered kind) rest
      (kind.pair (labels.used kind)) := by
  rintro before behind connects rfl _
  exact takeLabels_eq_ok_iff.mpr ⟨rfl, connects⟩

/-! ## Sequences and nodes -/

theorem bind {step : Pass α} {next : α → Pass β} {first second : Passage}
    {value : α} {result : β}
    (reads : Reads step labels first (second.tokens ++ rest) value)
    (readsNext :
      Reads (next value) (labels.advance first.numbers) second rest
        result) :
    Reads (step >>= next) labels (first ++ second) rest result := by
  rintro before behind connects rfl rfl
  obtain ⟨between, connectsFirst, connectsSecond⟩ := connects.split
  exact bind_eq_ok_iff.mpr
    ⟨value, between, reads _ _ connectsFirst rfl connectsSecond.rest_eq,
      readsNext _ _ connectsSecond connectsFirst.labels_eq rfl⟩

theorem map {step : Pass α} {change : α → β} {passage : Passage} {value : α}
    (reads : Reads step labels passage rest value) :
    Reads (step >>= fun found => Pure.pure (change found)) labels passage
      rest (change value) :=
  fun _ behind connects sameLabels sameRest =>
    bind_eq_ok_iff.mpr
      ⟨value, behind, reads _ _ connects sameLabels sameRest, rfl⟩

/-- A step that leaves the state as it is stands before another one. -/
theorem bind_of_run {step : Pass α} {next : α → Pass β} {passage : Passage}
    {value : α} {result : β}
    (run : ∀ before, step.run before = .ok value before)
    (readsNext : Reads (next value) labels passage rest result) :
    Reads (step >>= next) labels passage rest result :=
  fun before _ connects sameLabels sameRest =>
    bind_eq_ok_iff.mpr
      ⟨value, before, run before,
        readsNext _ _ connects sameLabels sameRest⟩

theorem peek_bind {next : Option Token → Pass β} {passage : Passage}
    {result : β}
    (reads :
      Reads (next (passage.tokens ++ rest).head?) labels passage rest
        result) :
    Reads (peek >>= next) labels passage rest result := by
  rintro before behind connects rfl rfl
  rw [run_peek_bind, connects.next?_eq]
  exact reads _ _ connects rfl rfl

/-- The branch that is taken before the token asked for. -/
theorem ite_of_next {token : Token} {accepted refused : Pass α}
    {passage : Passage} {result : α}
    (next : (passage.tokens ++ rest).head? = some token)
    (reads : Reads accepted labels passage rest result) :
    Reads (do if ← nextIs token then accepted else refused) labels passage
      rest result := by
  rintro before behind connects rfl rfl
  rw [run_nextIs_bind, connects.next?_eq, next]
  simpa using reads _ _ connects rfl rfl

/-- The branch that is taken before any other token. -/
theorem ite_of_next_ne {token : Token} {accepted refused : Pass α}
    {passage : Passage} {result : α}
    (next : (passage.tokens ++ rest).head? ≠ some token)
    (reads : Reads refused labels passage rest result) :
    Reads (do if ← nextIs token then accepted else refused) labels passage
      rest result := by
  rintro before behind connects rfl rfl
  have other :
      ((passage.tokens ++ behind.rest).head? == some token) = false :=
    beq_eq_false_iff_ne.mpr next
  rw [run_nextIs_bind, connects.next?_eq, other]
  simpa using reads _ _ connects rfl rfl

theorem ite_of_other {token other : Token} {accepted refused : Pass α}
    {passage : Passage} {result : α}
    (next : (passage.tokens ++ rest).head? = some other)
    (different : other ≠ token)
    (reads : Reads refused labels passage rest result) :
    Reads (do if ← nextIs token then accepted else refused) labels passage
      rest result := by
  refine ite_of_next_ne ?_ reads
  rw [next]
  simpa using different

theorem within {body : Pass α} {passage : Passage} {result : α}
    (node : Node) (reads : Reads body labels passage rest result) :
    Reads (Pass.within node body) labels (passage.inside node) rest
      result := by
  rintro before behind connects rfl rfl
  obtain ⟨between, connectsInside, rfl⟩ := connects.of_inside
  exact within_eq_ok_iff.mpr
    ⟨between, reads _ _ connectsInside rfl rfl, rfl⟩

end Reads

/-! ## Repetitions -/

variable {wanted : Token → Option α} {body : α → β → Pass β}

/-- A repetition reads a passage if it may take as many rounds as there are
tokens. -/
def ReadsLoop (wanted : Token → Option α) (body : α → β → Pass β)
    (labels : LabelCounters) (passage : Passage) (rest : List Token)
    (initial result : β) : Prop :=
  ∀ count, (passage.tokens ++ rest).length ≤ count →
    Reads (repeatAtMost wanted body count initial) labels passage rest
      result

namespace ReadsLoop

/-- A repetition ends before a token that begins no round. -/
theorem stop {initial : β} (ends : rest.head?.bind wanted = none) :
    ReadsLoop wanted body labels .empty rest initial initial := by
  intro count _
  cases count with
  | zero => exact Reads.pure initial
  | succ count =>
      refine Reads.peek_bind ?_
      rw [Passage.tokens_empty, List.nil_append, ends]
      exact Reads.pure initial

theorem again {first others : Passage} {choice : α}
    {initial between result : β}
    (begins : first.tokens.head?.bind wanted = some choice)
    (reads :
      Reads (body choice initial) labels first (others.tokens ++ rest)
        between)
    (loop :
      ReadsLoop wanted body (labels.advance first.numbers) others rest
        between result) :
    ReadsLoop wanted body labels (first ++ others) rest initial result := by
  obtain ⟨token, next, selected⟩ := Option.bind_eq_some_iff.mp begins
  obtain ⟨later, firstTokens⟩ := List.head?_eq_some_iff.mp next
  intro count enough
  cases count with
  | zero => simp [firstTokens] at enough
  | succ count =>
      have enoughLater : (others.tokens ++ rest).length ≤ count := by
        simp only [Passage.tokens_append, firstTokens,
          List.length_append, List.length_cons] at enough ⊢
        omega
      refine Reads.peek_bind ?_
      have chosen :
          ((first ++ others).tokens ++ rest).head?.bind wanted =
            some choice := by
        simpa [firstTokens] using selected
      rw [chosen]
      exact Reads.bind reads (loop count enoughLater)

end ReadsLoop

theorem Reads.repeatWhile {passage : Passage} {initial result : β}
    (loop : ReadsLoop wanted body labels passage rest initial result) :
    Reads (Pass.repeatWhile wanted body initial) labels passage rest
      result := by
  rintro before behind connects rfl rfl
  have enough :
      (passage.tokens ++ behind.rest).length ≤ before.remaining := by
    refine Nat.le_of_eq ?_
    rw [← PassState.length_rest, connects.rest_eq]
  exact loop before.remaining enough _ _ connects rfl rfl

/-- What holds of no round, and of one more round if it holds of the others,
holds of every repetition that succeeds. -/
theorem of_repeatWhile {motive : β → PassState → β → PassState → Prop}
    (stop : ∀ result state, motive result state result state)
    (again : ∀ {choice initial before value between result behind},
      before.next?.bind wanted = some choice →
      (body choice initial).run before = .ok value between →
      motive value between result behind →
      motive initial before result behind)
    {initial result : β} {before behind : PassState}
    (run :
      (repeatWhile wanted body initial).run before = .ok result behind) :
    motive initial before result behind := by
  have ofCount : ∀ (count : Nat) {initial : β} {before : PassState},
      (repeatAtMost wanted body count initial).run before =
        .ok result behind →
      motive initial before result behind := by
    intro count
    induction count with
    | zero =>
        intro initial before run
        obtain ⟨rfl, rfl⟩ := pure_eq_ok_iff.mp run
        exact stop result behind
    | succ count inductionHypothesis =>
        intro initial before run
        rw [repeatAtMost, run_peek_bind] at run
        split at run
        next choice begins =>
          obtain ⟨value, between, round, later⟩ := bind_eq_ok_iff.mp run
          exact again begins round (inductionHypothesis later)
        next =>
          obtain ⟨rfl, rfl⟩ := pure_eq_ok_iff.mp run
          exact stop result behind
  exact ofCount before.remaining run

end JackToVm.Pass
