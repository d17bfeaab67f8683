import JackToVm.Proofs.Laws

/-!
# Requests for label numbers

A pass asks for a number whenever it reads the keyword of a loop or a branch,
and never otherwise. Its requests are served in order, each with the next
number of its kind, and the first one that finds its counter exhausted ends the
pass. Which requests a source makes does not depend on the counters, except
that a refusal cuts them off.
-/

namespace JackToVm

/-! ## Answers of the counters -/

namespace LabelCounters

/-- Label counters answer requests for numbers of some kinds, made one after
the other. Only the last request can be refused; `refused` is its kind if it
is. -/
inductive Serves : LabelCounters → List LabelKind → Option LabelKind →
    LabelCounters → Prop where
  | done (labels : LabelCounters) : Serves labels [] none labels
  | take {labels between behind : LabelCounters} {kind : LabelKind}
      {pair : LabelPair} {kinds : List LabelKind}
      {refused : Option LabelKind} :
      labels.take? kind = some (pair, between) →
      Serves between kinds refused behind →
      Serves labels (kind :: kinds) refused behind
  | refuse {labels : LabelCounters} {kind : LabelKind} :
      labels.take? kind = none → Serves labels [kind] (some kind) labels

theorem exhausted_iff {labels : LabelCounters} {kind : LabelKind} :
    labels.Exhausted kind ↔ Counter.limit ≤ labels.used kind := by
  rw [Exhausted, take?, Option.map_eq_none_iff, Counter.take?_eq_none_iff]
  rfl

/-- An exhausted counter stays so when more numbers are used up. -/
theorem Exhausted.of_used_le {labels behind : LabelCounters}
    {kind : LabelKind} (exhausted : labels.Exhausted kind)
    (used_le : labels.used kind ≤ behind.used kind) :
    behind.Exhausted kind := by
  rw [exhausted_iff] at exhausted ⊢
  exact Nat.le_trans exhausted used_le

/-- A number of one kind leaves the counter of the other kind as it is. -/
theorem get_eq_of_take {labels between : LabelCounters}
    {first kind : LabelKind} {pair : LabelPair}
    (taken : labels.take? first = some (pair, between))
    (different : first ≠ kind) : between.get kind = labels.get kind := by
  obtain ⟨_, rfl, _⟩ := take?_eq_some_iff.mp taken
  cases first <;> cases kind <;> first
    | exact absurd rfl different
    | rfl

/-- A number is taken from another counter than from an exhausted one, which
stays exhausted. -/
theorem Exhausted.of_take {labels between : LabelCounters}
    {first kind : LabelKind} {pair : LabelPair}
    (exhausted : labels.Exhausted kind)
    (taken : labels.take? first = some (pair, between)) :
    first ≠ kind ∧ between.Exhausted kind := by
  have different : first ≠ kind := by
    rintro rfl
    rw [exhausted] at taken
    cases taken
  have same := congrArg Counter.value (get_eq_of_take taken different)
  exact ⟨different, exhausted.of_used_le same.ge⟩

namespace Serves

variable {labels between behind : LabelCounters}
variable {kinds others : List LabelKind} {kind : LabelKind}
variable {refused : Option LabelKind}

theorem append (first : Serves labels kinds none between)
    (second : Serves between others refused behind) :
    Serves labels (kinds ++ others) refused behind := by
  generalize none_refused : (none : Option LabelKind) = served at first
  induction first with
  | done => exact second
  | take taken _ inductionHypothesis =>
      exact .take taken (inductionHypothesis second none_refused)
  | refuse _ => cases none_refused

/-- Numbers are never given back. -/
theorem used_le (serves : Serves labels kinds refused behind)
    (asked : LabelKind) : labels.used asked ≤ behind.used asked := by
  induction serves with
  | done => exact Nat.le_refl _
  | take taken _ inductionHypothesis =>
      obtain ⟨_, rfl, _⟩ := take?_eq_some_iff.mp taken
      rw [used_advance] at inductionHypothesis
      exact Nat.le_trans (Nat.le_add_right _ _) inductionHypothesis
  | refuse _ => exact Nat.le_refl _

/-- An exhausted counter stays as it is. -/
theorem get_eq_of_exhausted (serves : Serves labels kinds refused behind)
    (exhausted : labels.Exhausted kind) :
    behind.get kind = labels.get kind := by
  induction serves with
  | done => rfl
  | take taken _ inductionHypothesis =>
      obtain ⟨different, later⟩ := exhausted.of_take taken
      rw [inductionHypothesis later, get_eq_of_take taken different]
  | refuse _ => rfl

/-- A request of an exhausted counter is refused. -/
theorem refused_of_exhausted (serves : Serves labels kinds refused behind)
    (exhausted : labels.Exhausted kind) (asked : kind ∈ kinds) :
    refused = some kind := by
  induction serves with
  | done => cases asked
  | take taken _ inductionHypothesis =>
      obtain ⟨different, later⟩ := exhausted.of_take taken
      rcases List.mem_cons.mp asked with same | askedLater
      · exact absurd same.symm different
      · exact inductionHypothesis later askedLater
  | refuse _ => rw [List.mem_singleton.mp asked]

/-- What is refused is a request of an exhausted counter. -/
theorem exhausted_of_refused
    (serves : Serves labels kinds (some kind) behind) :
    kind ∈ kinds ∧ behind.Exhausted kind := by
  generalize some_refused : some kind = refused at serves
  induction serves with
  | done => cases some_refused
  | take _ _ inductionHypothesis =>
      have later := inductionHypothesis some_refused
      exact ⟨List.mem_cons_of_mem _ later.1, later.2⟩
  | refuse exhausted =>
      obtain rfl := Option.some.inj some_refused
      exact ⟨List.mem_cons_self, exhausted⟩

/-- The numbers of one kind are handed out in order. -/
theorem handOut_eq_range (serves : Serves labels kinds refused behind)
    (kind : LabelKind) :
    ((labels.handOut kinds).filter (·.1 = kind)).map Prod.snd =
      List.range' (labels.used kind)
        (behind.used kind - labels.used kind) := by
  induction serves with
  | done => simp [handOut]
  | @take labels between behind first pair kinds refused taken serves
      inductionHypothesis =>
      have above := serves.used_le kind
      obtain ⟨_, rfl, _⟩ := take?_eq_some_iff.mp taken
      rw [used_advance] at above inductionHypothesis
      rw [handOut, taken]
      by_cases same : first = kind
      · subst same
        simp only [NumbersUsed.one, if_true] at above inductionHypothesis
        have split : behind.used first - labels.used first =
            (behind.used first - (labels.used first + 1)) + 1 := by
          omega
        simp only [decide_true, List.filter_cons_of_pos, List.map_cons,
          inductionHypothesis]
        rw [split, List.range'_succ]
      · simp only [NumbersUsed.one, same, if_false,
          Nat.add_zero] at inductionHypothesis
        simpa [same] using inductionHypothesis
  | refuse exhausted => simp [handOut, exhausted]

example : LabelCounters.initial.handOut [.while, .if, .while] =
    [(.while, 0), (.if, 0), (.while, 1)] := by
  decide

/-- A counter that refuses nothing goes on by the number of its requests. -/
theorem used_eq (serves : Serves labels kinds refused behind)
    (served : refused ≠ some kind) :
    behind.used kind = labels.used kind + kinds.count kind := by
  induction serves with
  | done => rfl
  | @take labels between _ first _ _ _ taken _ inductionHypothesis =>
      have later := inductionHypothesis served
      obtain ⟨_, rfl, _⟩ := take?_eq_some_iff.mp taken
      rw [used_advance] at later
      rw [later, List.count_cons]
      by_cases same : first = kind
      · simp only [NumbersUsed.one, same, if_true, BEq.rfl]
        omega
      · simp [NumbersUsed.one, same]
  | refuse _ =>
      have different : _ ≠ kind := fun same => served (congrArg some same)
      simp [different]

end Serves

end LabelCounters

/-! ## Requests of a pass -/

/-- The kind of the number that was refused, if that is why a pass fails. -/
def CompileError.refused? : CompileError → Option LabelKind
  | .limit (.labels kind) => some kind
  | _ => none

theorem CompileError.refused?_eq_some_iff {cause : CompileError}
    {kind : LabelKind} :
    cause.refused? = some kind ↔ cause = .limit (.labels kind) := by
  unfold refused?
  split
  next other => simp
  next different =>
    constructor
    · intro impossible
      cases impossible
    · rintro rfl
      exact absurd rfl (different kind)

theorem CompileError.IsRule.refused?_eq_none {cause : CompileError}
    (rule : cause.IsRule) : cause.refused? = none := by
  cases refused : cause.refused? with
  | none => rfl
  | some kind =>
      rw [refused?_eq_some_iff] at refused
      subst cause
      cases rule

namespace PassState

theorem read_advance {state : PassState} {token : Token}
    (next : state.next? = some token) :
    state.advance.read = state.read ++ [token] := by
  have found : state.tokens.toList[state.cursor]? = some token := by
    rw [Array.getElem?_toList]
    exact next
  unfold advance
  rw [next]
  simp only [read, List.take_add_one, found, Option.toList_some]

theorem asked_advance {state : PassState} {token : Token}
    (next : state.next? = some token) :
    state.advance.asked =
      state.asked ++ (LabelKind.ofToken? token).toList := by
  unfold asked
  rw [read_advance next, List.filterMap_append]
  cases numbered : LabelKind.ofToken? token with
  | none => simp [numbered]
  | some kind => simp [numbered]

/-- The tokens that a pass has read begin those of a pass over the same tokens
that is not behind it. -/
theorem asked_prefix {first second : PassState}
    (notAhead : Pass.NotAhead first second) :
    first.asked <+: second.asked := by
  obtain ⟨same, before⟩ := notAhead
  unfold asked read
  rw [same]
  exact (List.take_prefix_take_left before).filterMap _

end PassState

namespace Pass

/-- Behind a step, the counters have answered the requests for the keywords
that the step has read. -/
def Requests : Law := fun before cause behind =>
  ∃ kinds, behind.asked = before.asked ++ kinds ∧
    before.labels.Serves kinds (cause.bind CompileError.refused?)
      behind.labels

theorem Requests.none {before behind : PassState}
    {cause : Option CompileError}
    (sameAsked : behind.asked = before.asked)
    (sameLabels : behind.labels = before.labels)
    (served : cause.bind CompileError.refused? = none) :
    Requests before cause behind := by
  refine ⟨[], ?_, ?_⟩
  · rw [sameAsked, List.append_nil]
  · rw [sameLabels, served]
    exact .done before.labels

theorem isLaw_requests : IsLaw Requests where
  refl state := .none rfl rfl rfl
  trans := by
    rintro first between last cause ⟨kinds, asked, serves⟩
      ⟨others, askedOthers, servesOthers⟩
    refine ⟨kinds ++ others, ?_, serves.append servesOthers⟩
    rw [askedOthers, asked, List.append_assoc]
  advance := by
    intro state token next unnumbered
    refine .none ?_ state.labels_advance rfl
    rw [PassState.asked_advance next, unnumbered]
    exact List.append_nil _
  numbered := by
    intro state kind labels behind next taken
    have asked := PassState.asked_advance next
    rw [LabelKind.ofToken?_keyword] at asked
    exact ⟨[kind], asked, .take taken (.done behind)⟩
  exhausted := by
    intro state kind next exhausted
    have asked := PassState.asked_advance next
    rw [LabelKind.ofToken?_keyword] at asked
    refine ⟨[kind], asked, ?_⟩
    rw [PassState.labels_advance]
    exact .refuse exhausted
  emit _ _ := .none rfl rfl rfl
  enter _ _ := .none rfl rfl rfl
  leave _ _ := .none rfl rfl rfl
  finish _ _ := .none rfl rfl rfl
  unexpected _ _ := .none rfl rfl rfl
  refuse _ _ rule := .none rfl rfl rule.refused?_eq_none

end Pass

/-! ## Requests of a whole pass -/

/-- The counters answer the requests of a pass, and the pass fails with the
label limit exactly if its last request is refused. -/
theorem runPass_serves (tokens : List Token) (labels : LabelCounters) :
    labels.Serves (Pass.finalState (runPass tokens labels)).asked
      ((Pass.cause? (runPass tokens labels)).bind CompileError.refused?)
      (Pass.finalState (runPass tokens labels)).labels := by
  obtain ⟨kinds, asked, serves⟩ :=
    Pass.obeysAt_compilationUnit Pass.isLaw_requests
      (PassState.start tokens labels)
  have nothing : (PassState.start tokens labels).asked = [] := rfl
  rw [nothing, List.nil_append] at asked
  rw [← asked] at serves
  exact serves

/-- Two passes over the same tokens that find different counters end in the
same way, or the one is refused a number. -/
theorem runPass_alike (tokens : List Token)
    (labels others : LabelCounters) :
    Pass.AlikeEnds (fun _ _ => True) (runPass tokens labels)
      (runPass tokens others) := by
  have advances : Pass.Advances fun _ _ => True :=
    ⟨⟨fun labels => ⟨labels, trivial⟩, fun labels => ⟨labels, trivial⟩⟩,
      fun _ => trivial⟩
  have states : Pass.AlikeStates (fun _ _ => True)
      (PassState.start tokens labels) (PassState.start tokens others) :=
    ⟨rfl, rfl, rfl, rfl, .nil, fun _ => trivial⟩
  have alike : Pass.Alike (fun _ _ => True) none Pass.compilationUnit
      Pass.compilationUnit :=
    Pass.Alike.compilationUnit
  exact alike.ends advances states trivial

/-! ## Requests of a turn -/

namespace Turn

variable {turn : Turn}

/-- Why a turn yields no program. -/
def cause? (turn : Turn) : Option CompileError :=
  match turn.answer with
  | .ok _ => none
  | .error cause => some cause

theorem refused?_eq_some_iff {kind : LabelKind} :
    turn.cause?.bind CompileError.refused? = some kind ↔
      turn.answer = .error (.limit (.labels kind)) := by
  unfold cause?
  cases turn.answer with
  | ok program => simp
  | error cause => simp [CompileError.refused?_eq_some_iff]

/-- The counters answer the requests of a turn, and the turn fails with the
label limit exactly if its last request is refused. -/
theorem serves (turn : Turn) :
    turn.before.Serves turn.asked
      (turn.cause?.bind CompileError.refused?) turn.behind := by
  unfold asked cause? answer behind compileSource
  cases scanned : Token.scan turn.source with
  | error cause => exact .done turn.before
  | ok tokens =>
      have serves := runPass_serves tokens turn.before
      unfold compile
      simp only
      cases run : runPass tokens turn.before with
      | ok head final =>
          rw [run] at serves
          exact serves
      | error cause final =>
          rw [run] at serves
          exact serves

/-- What a source asks for does not depend on the counters that it finds,
except that a refusal cuts its requests off. -/
theorem asked_prefix_or_refused (source : String)
    (labels others : LabelCounters) :
    asked ⟨source, others⟩ <+: asked ⟨source, labels⟩ ∨
      ∃ kind, answer ⟨source, labels⟩ = .error (.limit (.labels kind)) := by
  unfold asked answer compileSource
  cases scanned : Token.scan source with
  | error cause => exact Or.inl (List.prefix_refl _)
  | ok tokens =>
      have ends := runPass_alike tokens labels others
      simp only [compile]
      generalize runPass tokens labels = first at ends
      generalize runPass tokens others = second at ends
      cases ends with
      | ok final =>
          exact Or.inl (PassState.asked_prefix final.symm_notAhead)
      | error _ final =>
          exact Or.inl (PassState.asked_prefix final.symm_notAhead)
      | @refusedFirst kind _ _ _ => exact Or.inr ⟨kind, rfl⟩
      | refusedSecond before =>
          exact Or.inl (PassState.asked_prefix before)

/-- A turn that asks an exhausted counter is refused with the label limit. -/
theorem answer_of_asked {kind : LabelKind}
    (exhausted : turn.before.Exhausted kind) (asked : kind ∈ turn.asked) :
    turn.answer = .error (.limit (.labels kind)) := by
  exact refused?_eq_some_iff.mp
    (turn.serves.refused_of_exhausted exhausted asked)

/-- A source that would need a number of an exhausted counter with any other
counters is refused with the label limit, whatever is wrong with it behind
that place. -/
theorem exists_refused_of_needed {kind : LabelKind}
    (exhausted : turn.before.Exhausted kind) {others : LabelCounters}
    (needed : kind ∈ asked ⟨turn.source, others⟩) :
    ∃ refused, turn.answer = .error (.limit (.labels refused)) := by
  rcases asked_prefix_or_refused turn.source turn.before others with
    before | refused
  · exact ⟨kind, answer_of_asked exhausted (before.subset needed)⟩
  · exact refused

end Turn

end JackToVm
