import JackToVm.Proofs.Alike
import Mathlib.Logic.Relator

/-!
# Laws of passes

A law says what a step does to the state of a pass, also when it fails. If a
law holds of every small step and of one step behind another, it holds of the
whole pass: `Alike.obeys` finds this by induction on the way in which the pass
is composed. In the same way two alike passes that are begun in alike states
stay alike, up to the first number that one of them is refused.
-/

namespace JackToVm

/-- What is known about the next token is right. -/
def PassState.Meets (state : PassState) : Option (Option Token) → Prop
  | none => True
  | some next => state.next? = next

@[simp]
theorem PassState.labels_advance (state : PassState) :
    state.advance.labels = state.labels := by
  unfold PassState.advance
  cases state.next? <;> rfl

namespace Pass

variable {α β : Type}

/-! ## Laws -/

/-- What a step does: the state before it, why it fails if it does, and the
state behind it. -/
abbrev Law := PassState → Option CompileError → PassState → Prop

/-- A law holds of every small step, and of one step behind another. -/
structure IsLaw (law : Law) : Prop where
  refl : ∀ state, law state none state
  trans : ∀ {first between last : PassState} {cause : Option CompileError},
    law first none between → law between cause last → law first cause last
  advance : ∀ {state : PassState} {token : Token},
    state.next? = some token → LabelKind.ofToken? token = none →
    law state none state.advance
  numbered : ∀ {state : PassState} {kind : LabelKind} {labels : LabelPair}
      {behind : LabelCounters},
    state.next? = some (.keyword kind.keyword) →
    state.labels.take? kind = some (labels, behind) →
    law state none { state.advance with labels := behind }
  exhausted : ∀ {state : PassState} {kind : LabelKind},
    state.next? = some (.keyword kind.keyword) →
    state.labels.take? kind = none →
    law state (some (.limit (.labels kind))) state.advance
  emit : ∀ state (commands : List Command),
    law state none { state with code := state.code ++ commands }
  enter : ∀ state node, law state none (state.enter node)
  leave : ∀ state node, law state none (state.leave node)
  finish : ∀ state symbols,
    law state none
      { state with subroutines := state.subroutines.push symbols }
  unexpected : ∀ state expected,
    law state (some (.unexpected expected state.next?)) state
  refuse : ∀ state {cause : CompileError}, cause.IsRule →
    law state (some cause) state

/-- A step obeys a law when it is begun in a state. -/
def ObeysAt (law : Law) (step : Pass α) (before : PassState) : Prop :=
  law before (cause? (step.run before)) (finalState (step.run before))

theorem ObeysAt.bind {law : Law} (isLaw : IsLaw law) {step : Pass α}
    {later : α → Pass β} {before : PassState}
    (obeys : ObeysAt law step before)
    (obeysLater : ∀ value between, ObeysAt law (later value) between) :
    ObeysAt law (step >>= later) before := by
  unfold ObeysAt at obeys ⊢
  rw [EStateM.run_bind]
  cases run : step.run before with
  | ok value between =>
      rw [run] at obeys
      exact isLaw.trans obeys (obeysLater value between)
  | error cause between =>
      rw [run] at obeys
      exact obeys

/-! ## Runs of small steps -/

theorem run_expectKeyword_bind (reserved : Keyword)
    (later : Unit → Pass β) (before : PassState) :
    (expectKeyword reserved >>= later).run before =
      if before.next? = some (.keyword reserved) then
        (later ()).run before.advance
      else
        .error (.unexpected (.keyword reserved) before.next?) before := by
  by_cases found : before.next? = some (.keyword reserved)
  · have taken : (expectKeyword reserved).run before =
        .ok () before.advance := by
      rw [expectKeyword, run_nextIs_bind, found, BEq.rfl]
      rfl
    rw [if_pos found, EStateM.run_bind, taken]
  · have different :
        (before.next? == some (.keyword reserved)) = false :=
      beq_eq_false_iff_ne.mpr found
    have refused : (expectKeyword reserved).run before =
        .error (.unexpected (.keyword reserved) before.next?) before := by
      rw [expectKeyword, run_nextIs_bind, different]
      rfl
    rw [if_neg found, EStateM.run_bind, refused]

theorem run_takeLabels_bind (kind : LabelKind)
    (later : LabelPair → Pass β) (before : PassState) :
    (takeLabels kind >>= later).run before =
      match before.labels.take? kind with
      | some (labels, behind) =>
          (later labels).run { before with labels := behind }
      | none => .error (.limit (.labels kind)) before := by
  rw [EStateM.run_bind, run_takeLabels]
  cases before.labels.take? kind <;> rfl

/-! ## Composed steps -/

section Composed

variable {law : Law} {before : PassState}

theorem ObeysAt.within (isLaw : IsLaw law) {body : Pass α} (node : Node)
    (obeys : ObeysAt law body (before.enter node)) :
    ObeysAt law (Pass.within node body) before := by
  have entered := isLaw.enter before node
  unfold ObeysAt at obeys ⊢
  rw [run_within]
  cases run : body.run (before.enter node) with
  | ok value outside =>
      rw [run] at obeys
      have inside := isLaw.trans entered obeys
      exact isLaw.trans inside (isLaw.leave outside node)
  | error cause outside =>
      rw [run] at obeys
      exact isLaw.trans entered obeys

theorem ObeysAt.numbered (isLaw : IsLaw law) (kind : LabelKind)
    {later : LabelPair → Pass β}
    (obeysLater : ∀ labels between, ObeysAt law (later labels) between) :
    ObeysAt law
      (expectKeyword kind.keyword >>= fun _ =>
        takeLabels kind >>= later) before := by
  unfold ObeysAt
  rw [run_expectKeyword_bind]
  by_cases found : before.next? = some (.keyword kind.keyword)
  · rw [if_pos found, run_takeLabels_bind, PassState.labels_advance]
    cases available : before.labels.take? kind with
    | none => exact isLaw.exhausted found available
    | some taken =>
        exact isLaw.trans (isLaw.numbered found available)
          (obeysLater taken.1 _)
  · rw [if_neg found]
    exact isLaw.unexpected before _

theorem ObeysAt.repeatAtMost (isLaw : IsLaw law)
    {wanted : Token → Option α} {body : α → β → Pass β}
    (obeysBody : ∀ {token choice} (result : β) {state : PassState},
      wanted token = some choice → state.next? = some token →
      ObeysAt law (body choice result) state) :
    ∀ (count : Nat) (result : β) (state : PassState),
      ObeysAt law (Pass.repeatAtMost wanted body count result) state := by
  intro count
  induction count with
  | zero => exact fun _ state => isLaw.refl state
  | succ count inductionHypothesis =>
      intro result state
      unfold ObeysAt
      rw [Pass.repeatAtMost, run_peek_bind]
      cases begins : state.next?.bind wanted with
      | none => exact isLaw.refl state
      | some choice =>
          obtain ⟨token, next, selected⟩ :=
            Option.bind_eq_some_iff.mp begins
          have round := obeysBody result selected next
          exact round.bind isLaw inductionHypothesis

end Composed

/-- A step that is alike to another one obeys every law. -/
theorem Alike.obeys {related : LabelPair → LabelPair → Prop} {law : Law}
    (total : Relator.LeftTotal related) (isLaw : IsLaw law)
    {next : Option (Option Token)} {first second : Pass α}
    (alike : Alike related next first second) {before : PassState}
    (meets : before.Meets next) : ObeysAt law first before := by
  induction alike generalizing before with
  | pure value => exact isLaw.refl before
  | bind _ _ obeys obeysLater =>
      exact (obeys meets).bind isLaw fun value between =>
        obeysLater value trivial
  | peek _ obeysLater => exact obeysLater before.next? rfl
  | advance unnumbered => exact isLaw.advance meets unnumbered
  | numbered kind _ obeysLater =>
      refine ObeysAt.numbered isLaw kind fun labels between => ?_
      obtain ⟨otherLabels, pairs⟩ := total labels
      exact obeysLater labels otherLabels pairs trivial
  | emit _ => exact isLaw.emit before _
  | unexpected expected => exact isLaw.unexpected before expected
  | refuse rule => exact isLaw.refuse before rule
  | @within _ known _ _ node _ obeys =>
      refine ObeysAt.within isLaw node (obeys ?_)
      cases known with
      | none => trivial
      | some found => exact meets
  | repeatWhile initial _ obeys =>
      refine ObeysAt.repeatAtMost isLaw ?_ before.remaining initial before
      intro token choice result state selected found
      exact obeys token choice result selected found
  | finish symbols => exact isLaw.finish before symbols

theorem obeysAt_compilationUnit {law : Law} (isLaw : IsLaw law)
    (before : PassState) : ObeysAt law compilationUnit before := by
  have alike : Alike Eq none compilationUnit compilationUnit :=
    Alike.compilationUnit
  have total : Relator.LeftTotal (@Eq LabelPair) :=
    fun labels => ⟨labels, rfl⟩
  exact alike.obeys total isLaw trivial

/-! ## Two passes -/

/-- Every number of the one pass is related to the number that the other one
takes at the same place, if the first ones are. -/
structure Advances (related : LabelPair → LabelPair → Prop) : Prop where
  total : Relator.BiTotal related
  next : ∀ {kind : LabelKind} {number other : Nat},
    related (kind.pair number) (kind.pair other) →
    related (kind.pair (number + 1)) (kind.pair (other + 1))

/-- Two states of passes at the same place of the same tokens. What was written
is the same but for the labels. -/
structure AlikeStates (related : LabelPair → LabelPair → Prop)
    (first second : PassState) : Prop where
  tokens_eq : first.tokens = second.tokens
  cursor_eq : first.cursor = second.cursor
  walk_eq : first.walk = second.walk
  subroutines_eq : first.subroutines = second.subroutines
  code : List.Forall₂ (Command.Alike related) first.code.toList
    second.code.toList
  labels : ∀ kind : LabelKind,
    related (kind.pair (first.labels.used kind))
      (kind.pair (second.labels.used kind))

/-- A pass has not gone further than another one over the same tokens. -/
def NotAhead (first second : PassState) : Prop :=
  first.tokens = second.tokens ∧ first.cursor ≤ second.cursor

theorem NotAhead.refl (state : PassState) : NotAhead state state :=
  ⟨rfl, Nat.le_refl _⟩

theorem NotAhead.trans {first between last : PassState}
    (before : NotAhead first between) (behind : NotAhead between last) :
    NotAhead first last :=
  ⟨before.1.trans behind.1, Nat.le_trans before.2 behind.2⟩

theorem NotAhead.advance (state : PassState) :
    NotAhead state state.advance := by
  unfold PassState.advance
  cases state.next? with
  | none => exact .refl state
  | some token => exact ⟨rfl, Nat.le_succ _⟩

/-- How two alike steps end: in the same way, or the one is refused a number
and the other one goes on from there. -/
inductive AlikeEnds (related : LabelPair → LabelPair → Prop) :
    EStateM.Result CompileError PassState α →
    EStateM.Result CompileError PassState α → Prop where
  | ok {value : α} {first second : PassState} :
      AlikeStates related first second →
      AlikeEnds related (.ok value first) (.ok value second)
  | error {cause : CompileError} {first second : PassState} :
      (∀ kind, cause ≠ .limit (.labels kind)) →
      AlikeStates related first second →
      AlikeEnds related (.error cause first) (.error cause second)
  | refusedFirst {kind : LabelKind} {first : PassState}
      {ending : EStateM.Result CompileError PassState α} :
      NotAhead first (finalState ending) →
      AlikeEnds related (.error (.limit (.labels kind)) first) ending
  | refusedSecond {kind : LabelKind} {second : PassState}
      {ending : EStateM.Result CompileError PassState α} :
      NotAhead second (finalState ending) →
      AlikeEnds related ending (.error (.limit (.labels kind)) second)

/-- A step does not go back. -/
def GoesOn : Law := fun before _ behind => NotAhead before behind

theorem isLaw_goesOn : IsLaw GoesOn where
  refl := NotAhead.refl
  trans := NotAhead.trans
  advance _ _ := NotAhead.advance _
  numbered _ _ := NotAhead.advance _
  exhausted _ _ := NotAhead.advance _
  emit state _ := NotAhead.refl state
  enter state _ := NotAhead.refl state
  leave state _ := NotAhead.refl state
  finish state _ := NotAhead.refl state
  unexpected state _ := NotAhead.refl state
  refuse state _ _ := NotAhead.refl state

/-! ## Alike passes stay alike -/

section Ends

variable {related : LabelPair → LabelPair → Prop}

namespace AlikeStates

variable {first second : PassState}

theorem next?_eq (states : AlikeStates related first second) :
    first.next? = second.next? := by
  unfold PassState.next?
  rw [states.tokens_eq, states.cursor_eq]

theorem remaining_eq (states : AlikeStates related first second) :
    first.remaining = second.remaining := by
  unfold PassState.remaining
  rw [states.tokens_eq, states.cursor_eq]

theorem notAhead (states : AlikeStates related first second) :
    NotAhead first second :=
  ⟨states.tokens_eq, Nat.le_of_eq states.cursor_eq⟩

theorem symm_notAhead (states : AlikeStates related first second) :
    NotAhead second first :=
  ⟨states.tokens_eq.symm, Nat.le_of_eq states.cursor_eq.symm⟩

theorem advance (states : AlikeStates related first second) :
    AlikeStates related first.advance second.advance := by
  have next := states.next?_eq
  cases found : second.next? with
  | none =>
      rw [found] at next
      unfold PassState.advance
      rw [next, found]
      exact states
  | some token =>
      rw [found] at next
      unfold PassState.advance
      rw [next, found]
      exact { states with
        cursor_eq := congrArg (· + 1) states.cursor_eq
        walk_eq := congrArg (·.push (.leaf token)) states.walk_eq }

theorem emit (states : AlikeStates related first second)
    {commands others : List Command}
    (alike : List.Forall₂ (Command.Alike related) commands others) :
    AlikeStates related
      { first with code := first.code ++ commands }
      { second with code := second.code ++ others } :=
  { states with
    code := by
      simp only [Array.toList_appendList]
      exact List.rel_append states.code alike }

theorem enter (states : AlikeStates related first second) (node : Node) :
    AlikeStates related (first.enter node) (second.enter node) :=
  { states with
    walk_eq := congrArg (·.push (.enter node)) states.walk_eq }

theorem leave (states : AlikeStates related first second) (node : Node) :
    AlikeStates related (first.leave node) (second.leave node) :=
  { states with
    walk_eq := congrArg (·.push (.leave node)) states.walk_eq }

theorem finish (states : AlikeStates related first second)
    (symbols : String × SymbolTable) :
    AlikeStates related
      { first with subroutines := first.subroutines.push symbols }
      { second with subroutines := second.subroutines.push symbols } :=
  { states with
    subroutines_eq :=
      congrArg (·.push symbols) states.subroutines_eq }

/-- Two states that take a number of the same kind stay alike, and the labels
that they are given are related. -/
theorem take (advances : Advances related)
    (states : AlikeStates related first second) {kind : LabelKind}
    {labels otherLabels : LabelPair} {behind otherBehind : LabelCounters}
    (taken : first.labels.take? kind = some (labels, behind))
    (otherTaken :
      second.labels.take? kind = some (otherLabels, otherBehind)) :
    related labels otherLabels ∧
      AlikeStates related { first with labels := behind }
        { second with labels := otherBehind } := by
  obtain ⟨rfl, rfl, _⟩ := LabelCounters.take?_eq_some_iff.mp taken
  obtain ⟨rfl, rfl, _⟩ := LabelCounters.take?_eq_some_iff.mp otherTaken
  refine ⟨states.labels kind, { states with labels := ?_ }⟩
  intro asked
  simp only [LabelCounters.used_advance]
  by_cases same : kind = asked
  · subst same
    simpa [NumbersUsed.one] using advances.next (states.labels kind)
  · simpa [NumbersUsed.one, same] using states.labels asked

end AlikeStates

/-- One step behind another: where the first ones stay alike, so must the
second ones, and a second step never goes back. -/
theorem AlikeEnds.bind {step other : Pass α} {later otherLater : α → Pass β}
    {first second : PassState}
    (ends : AlikeEnds related (step.run first) (other.run second))
    (laterEnds : ∀ value {between otherBetween : PassState},
      AlikeStates related between otherBetween →
      AlikeEnds related ((later value).run between)
        ((otherLater value).run otherBetween))
    (goesOn : ∀ value between, ObeysAt GoesOn (later value) between)
    (otherGoesOn : ∀ value between,
      ObeysAt GoesOn (otherLater value) between) :
    AlikeEnds related ((step >>= later).run first)
      ((other >>= otherLater).run second) := by
  rw [EStateM.run_bind, EStateM.run_bind]
  cases run : step.run first with
  | ok value between =>
      rw [run] at ends
      cases otherRun : other.run second with
      | ok otherValue otherBetween =>
          rw [otherRun] at ends
          cases ends with
          | ok states => exact laterEnds value states
      | error cause otherBetween =>
          rw [otherRun] at ends
          cases ends with
          | refusedSecond before =>
              exact .refusedSecond (before.trans (goesOn value between))
  | error cause between =>
      rw [run] at ends
      cases otherRun : other.run second with
      | ok otherValue otherBetween =>
          rw [otherRun] at ends
          cases ends with
          | refusedFirst before =>
              exact .refusedFirst
                (before.trans (otherGoesOn otherValue otherBetween))
      | error otherCause otherBetween =>
          rw [otherRun] at ends
          cases ends with
          | error noLimit states => exact .error noLimit states
          | refusedFirst before => exact .refusedFirst before
          | refusedSecond before => exact .refusedSecond before

theorem AlikeEnds.within {body other : Pass α} {first second : PassState}
    (node : Node)
    (ends : AlikeEnds related (body.run (first.enter node))
      (other.run (second.enter node))) :
    AlikeEnds related ((Pass.within node body).run first)
      ((Pass.within node other).run second) := by
  rw [run_within, run_within]
  cases run : body.run (first.enter node) with
  | ok value outside =>
      rw [run] at ends
      cases otherRun : other.run (second.enter node) with
      | ok otherValue otherOutside =>
          rw [otherRun] at ends
          cases ends with
          | ok states => exact .ok (states.leave node)
      | error cause otherOutside =>
          rw [otherRun] at ends
          cases ends with
          | refusedSecond before => exact .refusedSecond before
  | error cause outside =>
      rw [run] at ends
      cases otherRun : other.run (second.enter node) with
      | ok otherValue otherOutside =>
          rw [otherRun] at ends
          cases ends with
          | refusedFirst before => exact .refusedFirst before
      | error otherCause otherOutside =>
          rw [otherRun] at ends
          cases ends with
          | error noLimit states => exact .error noLimit states
          | refusedFirst before => exact .refusedFirst before
          | refusedSecond before => exact .refusedSecond before

/-- Both steps read the keyword of a statement. Each one is given a number or
refused one, and the one that is refused has not gone further. -/
theorem AlikeEnds.numbered (advances : Advances related)
    {later otherLater : LabelPair → Pass β} {first second : PassState}
    (kind : LabelKind) (states : AlikeStates related first second)
    (laterEnds : ∀ {labels otherLabels} {between otherBetween : PassState},
      related labels otherLabels →
      AlikeStates related between otherBetween →
      AlikeEnds related ((later labels).run between)
        ((otherLater otherLabels).run otherBetween))
    (goesOn : ∀ labels between, ObeysAt GoesOn (later labels) between)
    (otherGoesOn : ∀ labels between,
      ObeysAt GoesOn (otherLater labels) between) :
    AlikeEnds related
      ((expectKeyword kind.keyword >>= fun _ =>
        takeLabels kind >>= later).run first)
      ((expectKeyword kind.keyword >>= fun _ =>
        takeLabels kind >>= otherLater).run second) := by
  rw [run_expectKeyword_bind, run_expectKeyword_bind, ← states.next?_eq]
  by_cases found : first.next? = some (.keyword kind.keyword)
  · have advanced := states.advance
    rw [if_pos found, if_pos found, run_takeLabels_bind,
      run_takeLabels_bind]
    cases available : first.advance.labels.take? kind with
    | none =>
        cases otherAvailable : second.advance.labels.take? kind with
        | none => exact .refusedFirst advanced.notAhead
        | some otherTaken =>
            have later : NotAhead second.advance _ :=
              otherGoesOn otherTaken.1
                { second.advance with labels := otherTaken.2 }
            exact .refusedFirst (advanced.notAhead.trans later)
    | some taken =>
        cases otherAvailable : second.advance.labels.take? kind with
        | none =>
            have later : NotAhead first.advance _ :=
              goesOn taken.1 { first.advance with labels := taken.2 }
            exact .refusedSecond (advanced.symm_notAhead.trans later)
        | some otherTaken =>
            obtain ⟨pairs, statesBehind⟩ :=
              advanced.take advances available otherAvailable
            exact laterEnds pairs statesBehind
  · rw [if_neg found, if_neg found]
    exact .error (fun _ same => by cases same) states

theorem AlikeEnds.repeatAtMost {wanted : Token → Option α}
    {body other : α → β → Pass β}
    (bodyEnds : ∀ {token choice} (result : β) {first second : PassState},
      wanted token = some choice → first.next? = some token →
      AlikeStates related first second →
      AlikeEnds related ((body choice result).run first)
        ((other choice result).run second))
    (goesOn : ∀ {token choice} (result : β) {state : PassState},
      wanted token = some choice → state.next? = some token →
      ObeysAt GoesOn (body choice result) state)
    (otherGoesOn : ∀ {token choice} (result : β) {state : PassState},
      wanted token = some choice → state.next? = some token →
      ObeysAt GoesOn (other choice result) state) :
    ∀ (count : Nat) (result : β) {first second : PassState},
      AlikeStates related first second →
      AlikeEnds related
        ((Pass.repeatAtMost wanted body count result).run first)
        ((Pass.repeatAtMost wanted other count result).run second) := by
  intro count
  induction count with
  | zero => exact fun _ _ _ states => .ok states
  | succ count inductionHypothesis =>
      intro result first second states
      rw [Pass.repeatAtMost, Pass.repeatAtMost, run_peek_bind,
        run_peek_bind, ← states.next?_eq]
      cases begins : first.next?.bind wanted with
      | none => exact .ok states
      | some choice =>
          obtain ⟨token, next, selected⟩ :=
            Option.bind_eq_some_iff.mp begins
          have round := bodyEnds result selected next states
          refine round.bind (fun value _ _ between =>
            inductionHypothesis value between) ?_ ?_
          · exact ObeysAt.repeatAtMost isLaw_goesOn goesOn count
          · exact ObeysAt.repeatAtMost isLaw_goesOn otherGoesOn count

/-- Two alike steps, begun in alike states, end in the same way, or the one is
refused a number where the other one goes on. -/
theorem Alike.ends (advances : Advances related)
    {next : Option (Option Token)} {step other : Pass α}
    (alike : Alike related next step other) {first second : PassState}
    (states : AlikeStates related first second)
    (meets : first.Meets next) :
    AlikeEnds related (step.run first) (other.run second) := by
  have goesOn : ∀ {γ : Type} {next : Option (Option Token)}
      {step other : Pass γ}, Alike related next step other →
      ∀ {state : PassState}, state.Meets next →
        ObeysAt GoesOn step state :=
    fun alike _ meets => alike.obeys advances.total.left isLaw_goesOn meets
  have otherGoesOn : ∀ {γ : Type} {next : Option (Option Token)}
      {step other : Pass γ}, Alike related next step other →
      ∀ {state : PassState}, state.Meets next →
        ObeysAt GoesOn other state :=
    fun alike _ meets =>
      alike.symm.obeys advances.total.right isLaw_goesOn meets
  induction alike generalizing first second with
  | pure value => exact .ok states
  | bind _ later ends laterEnds =>
      refine (ends states meets).bind
        (fun value _ _ between => laterEnds value between trivial) ?_ ?_
      · exact fun value _ => goesOn (later value) trivial
      · exact fun value _ => otherGoesOn (later value) trivial
  | peek _ laterEnds =>
      rw [run_peek_bind, run_peek_bind, ← states.next?_eq]
      exact laterEnds first.next? states rfl
  | advance _ => exact .ok states.advance
  | numbered kind later laterEnds =>
      refine AlikeEnds.numbered advances kind states ?_ ?_ ?_
      · intro labels otherLabels between otherBetween pairs statesBetween
        exact laterEnds labels otherLabels pairs statesBetween trivial
      · intro labels between
        obtain ⟨otherLabels, pairs⟩ := advances.total.left labels
        exact goesOn (later labels otherLabels pairs) trivial
      · intro otherLabels between
        obtain ⟨labels, pairs⟩ := advances.total.right otherLabels
        exact otherGoesOn (later labels otherLabels pairs) trivial
  | emit commands => exact .ok (states.emit commands)
  | unexpected expected =>
      change AlikeEnds related
        (.error (.unexpected expected first.next?) first)
        (.error (.unexpected expected second.next?) second)
      rw [← states.next?_eq]
      exact .error (fun _ same => by cases same) states
  | refuse rule =>
      refine .error ?_ states
      rintro kind rfl
      exact rule
  | @within _ known _ _ node _ ends =>
      refine AlikeEnds.within node (ends (states.enter node) ?_)
      cases known with
      | none => trivial
      | some found => exact meets
  | @repeatWhile _ _ _ wanted body other initial parts ends =>
      have loops : ∀ count, AlikeEnds related
          ((Pass.repeatAtMost wanted body count initial).run first)
          ((Pass.repeatAtMost wanted other count initial).run second) := by
        intro count
        refine AlikeEnds.repeatAtMost ?_ ?_ ?_ count initial states
        · intro token choice result first second selected next states
          exact ends token choice result selected states next
        · intro token choice result state selected next
          exact goesOn (parts token choice result selected) next
        · intro token choice result state selected next
          exact otherGoesOn (parts token choice result selected) next
      change AlikeEnds related
        ((Pass.repeatAtMost wanted body first.remaining initial).run first)
        ((Pass.repeatAtMost wanted other second.remaining initial).run
          second)
      rw [← states.remaining_eq]
      exact loops first.remaining
  | finish symbols => exact .ok (states.finish symbols)

end Ends

end Pass

end JackToVm
