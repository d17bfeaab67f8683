import JackToVm.Proofs.Courses
import JackToVm.Proofs.Laws

/-!
# Descents and passes

`Accords` says of a descent that it ends wherever it begins, that its course is
in order, and that a pass comes to the same. Its rules follow the shape of the
descents: one for a sequence, one for a node, one for each kind of loop. A loop
ends because each of its rounds takes a token, and a node finds room for one
node less inside of it.
-/

namespace JackToVm

/-- What is known of a state before a step: perhaps the token that comes next,
that `left` tokens are left at most, and that `room` more nodes fit. -/
structure DescentState.IsAt (state : DescentState)
    (next : Option (Option Token)) (left room : Nat) : Prop where
  meets : state.Meets next
  room_eq : state.depth + room = Node.maxDepth
  cursor_le : state.cursor ≤ state.tokens.size
  size_le : state.tokens.size ≤ state.cursor + left

namespace DescentState.IsAt

variable {next : Option (Option Token)} {left room : Nat}
variable {state : DescentState}

theorem isAllowed (isAt : state.IsAt next left room) {floor : Nat}
    (below : floor ≤ state.depth) :
    state.IsAllowed floor state.tokens.size where
  floor_le := below
  depth_le := isAt.room_eq ▸ Nat.le_add_right _ _
  cursor_le := isAt.cursor_le

/-- A token that comes next is one of those that are left. -/
theorem left_pos (isAt : state.IsAt next left room)
    (found : state.next?.isSome) : 0 < left := by
  obtain ⟨token, found⟩ := Option.isSome_iff_exists.mp found
  have inside := (Array.getElem?_eq_some_iff.mp found).1
  have enough := isAt.size_le
  omega

end DescentState.IsAt

/-- A repetition on one particular token asks for it before each round. -/
theorem Pass.repeatAtMost_exactly_succ {β : Type} {token : Token}
    {body : Unit → β → Pass β} (count : Nat) (result : β) :
    Pass.repeatAtMost (Pass.exactly token) body (count + 1) result = (do
      if ← Pass.nextIs token then
        Pass.repeatAtMost (Pass.exactly token) body count
          (← body () result)
      else
        return result) := by
  change _ = Pass.peek >>= fun found =>
    if found == some token then _ else _
  rw [Pass.repeatAtMost]
  refine bind_congr fun found => ?_
  by_cases same : found = some token
  · simp [same, Pass.exactly]
  · have unselected : found.bind (Pass.exactly token) = none :=
      Pass.bind_exactly_eq_none_iff.mpr same
    simp [same, unselected]

namespace Descent

variable {α β : Type}

/-- What comes of a step of a pass, if it leaves some nodes when it
succeeds. -/
def closed (closing : List Node) :
    EStateM.Result CompileError PassState α →
      EStateM.Result CompileError PassState α
  | .ok value behind => .ok value (closing.foldl PassState.leave behind)
  | .error cause behind => .error cause behind

@[simp]
theorem closed_nil (result : EStateM.Result CompileError PassState α) :
    closed [] result = result := by
  cases result <;> rfl

/-- What is done behind an item of a list: there is another one behind a
comma. -/
def furtherItems (item : β → Descent β) (result : β) : Descent β := do
  if ← Pass.nextIs (.symbol .comma) then
    advance
    commaSeparated item result
  else
    return result

/-- A descent ends wherever it begins. When it succeeds, it has closed just the
nodes in `closing` and taken `least` tokens at least. If a pass may be there at
all, a step of it that leaves these nodes comes to the same. -/
def Accords (placed : Prop) (next : Option (Option Token)) (left room : Nat)
    (closing : List Node) (least : Nat) (descent : Descent α)
    (pass : Pass α) : Prop :=
  ∀ (floor : Nat) (before : DescentState), before.IsAt next left room →
    before.depth = floor + closing.length →
    ∃ visited result behind,
      descent.Runs before visited result behind ∧
        Course floor before visited behind ∧
        (∀ value, result = .ok value →
          behind.depth = floor ∧ before.cursor + least ≤ behind.cursor) ∧
        (placed → closed closing (pass.run before.toPassState) =
          passResult behind result)

namespace Accords

variable {placed : Prop} {next : Option (Option Token)} {left room : Nat}
variable {closing : List Node} {least : Nat}

/-! ## Sequences -/

theorem weaken {fewer : Nat} {descent : Descent α} {pass : Pass α}
    (accords : Accords placed next left room closing least descent pass)
    (enough : fewer ≤ least) :
    Accords placed next left room closing fewer descent pass := by
  intro floor before isAt opened
  obtain ⟨visited, result, behind, ran, course, success, same⟩ :=
    accords floor before isAt opened
  refine ⟨visited, result, behind, ran, course, ?_, same⟩
  intro value succeeded
  have ⟨depth_eq, taken⟩ := success value succeeded
  exact ⟨depth_eq, by omega⟩

/-- Another step of a pass will do that is the same where a pass may be. -/
theorem of_eq {descent : Descent α} {pass other : Pass α}
    (accords : Accords placed next left room closing least descent pass)
    (same : placed → pass = other) :
    Accords placed next left room closing least descent other := by
  intro floor before isAt opened
  obtain ⟨visited, result, behind, ran, course, success, agreed⟩ :=
    accords floor before isAt opened
  exact ⟨visited, result, behind, ran, course, success,
    fun holds => same holds ▸ agreed holds⟩

theorem bind {first : Descent α} {later : α → Descent β} {pass : Pass α}
    {passLater : α → Pass β}
    (accords : Accords placed next left room [] least first pass)
    {needed : Nat}
    (accordsLater : ∀ value, Accords placed none (left - least) room closing
      (needed - least) (later value) (passLater value)) :
    Accords placed next left room closing needed (first >>= later)
      (pass >>= passLater) := by
  intro floor before isAt opened
  obtain ⟨visited, result, between, ran, course, success, same⟩ :=
    accords before.depth before isAt rfl
  have highEnough : floor ≤ before.depth :=
    opened ▸ Nat.le_add_right floor closing.length
  simp only [closed_nil] at same
  cases result with
  | error cause =>
      refine ⟨visited, .error cause, between, ran.followedBy_error rfl,
        course.lower_floor highEnough, fun _ => nofun, ?_⟩
      intro holds
      rw [EStateM.run_bind, same holds]
      rfl
  | ok value =>
      obtain ⟨depth_eq, taken⟩ := success value rfl
      have isBetween : between.IsAt none (left - least) room := by
        refine ⟨trivial, depth_eq ▸ isAt.room_eq,
          course.isAllowed_behind.cursor_le, ?_⟩
        have enough := isAt.size_le
        rw [course.extends_before.tokens_eq]
        omega
      obtain ⟨others, result, behind, ranLater, courseLater, successLater,
        sameLater⟩ := accordsLater value floor between isBetween
          (depth_eq.trans opened)
      refine ⟨visited ++ others, result, behind,
        ran.followedBy rfl ranLater,
        (course.lower_floor highEnough).append courseLater, ?_, ?_⟩
      · intro value succeeded
        have ⟨landed, takenLater⟩ := successLater value succeeded
        exact ⟨landed, by omega⟩
      · intro holds
        rw [EStateM.run_bind, same holds]
        exact sameLater holds

/-- The first descent takes all the tokens that must be taken. -/
theorem andThen {first : Descent α} {later : α → Descent β} {pass : Pass α}
    {passLater : α → Pass β}
    (accords : Accords placed next left room [] least first pass)
    (accordsLater : ∀ value, Accords placed none (left - least) room closing
      0 (later value) (passLater value)) :
    Accords placed next left room closing least (first >>= later)
      (pass >>= passLater) := by
  refine bind accords fun value => ?_
  rw [Nat.sub_self]
  exact accordsLater value

/-! ## Small steps -/

theorem pure (value : α) :
    Accords placed next left room [] 0 (Pure.pure value)
      (Pure.pure value) := by
  intro floor before isAt opened
  exact ⟨[], .ok value, before, .done _ _, .refl (isAt.isAllowed opened.ge),
    fun _ _ => ⟨opened, Nat.le_refl _⟩, fun _ => rfl⟩

/-- A small step that takes no token. -/
theorem writes {pass : Pass α}
    (extended : ∀ state : PassState,
      (Pass.finalState (pass.run state)).Extends state)
    (stays : ∀ state : PassState,
      (Pass.finalState (pass.run state)).cursor = state.cursor) :
    Accords placed next left room [] 0 (liftM pass) pass := by
  intro floor before isAt opened
  have allowed := isAt.isAllowed opened.ge
  have extended := extended before.toPassState
  have stays := stays before.toPassState
  have course {behind : PassState}
      (extended : behind.Extends before.toPassState)
      (stays : behind.cursor = before.cursor) :
      Course floor before [{ before with toPassState := behind }]
        { before with toPassState := behind } :=
    .one allowed ⟨allowed.floor_le, allowed.depth_le,
      stays.trans_le allowed.cursor_le⟩ extended
  cases run : pass.run before.toPassState with
  | ok value behind =>
      rw [run] at extended stays
      exact ⟨_, .ok value, _, .liftM_ok run, course extended stays,
        fun _ _ => ⟨opened, stays.ge⟩, fun _ => rfl⟩
  | error cause behind =>
      rw [run] at extended stays
      exact ⟨_, .error cause, _, .liftM_error run, course extended stays,
        fun _ => nofun, fun _ => rfl⟩

/-- A small step that succeeds or fails, but changes nothing. -/
theorem checks {pass : Pass α}
    (unchanged : ∀ state : PassState,
      Pass.finalState (pass.run state) = state) :
    Accords placed next left room [] 0 (liftM pass) pass :=
  writes (fun state => (unchanged state).symm ▸ .refl state)
    fun state => congrArg PassState.cursor (unchanged state)

theorem advance {token : Token} :
    Accords placed (some (some token)) left room [] 1 Descent.advance
      Pass.advance := by
  intro floor before isAt opened
  have allowed := isAt.isAllowed opened.ge
  have found : before.next? = some token := isAt.meets
  have inside := (Array.getElem?_eq_some_iff.mp found).1
  refine ⟨_, .ok (), _, .advance found, .one allowed ?_ (.walk _ _ _),
    fun _ _ => ⟨opened, Nat.le_refl _⟩, fun _ => ?_⟩
  · exact ⟨allowed.floor_le, allowed.depth_le, Nat.succ_le_of_lt inside⟩
  · change EStateM.Result.ok () before.advance = _
    rw [PassState.advance, found]
    rfl

/-- A step that fails where it begins. -/
theorem refuses {descent : Descent α} {pass : Pass α}
    (refused : ∀ before : DescentState, ∃ cause,
      descent.Runs before [before] (.error cause) before ∧
        pass.run before.toPassState =
          .error cause before.toPassState) :
    Accords placed next left room closing least descent pass := by
  intro floor before isAt opened
  have allowed : before.IsAllowed floor before.tokens.size :=
    isAt.isAllowed (by omega)
  obtain ⟨cause, ran, same⟩ := refused before
  refine ⟨[before], .error cause, before, ran,
    .stay allowed, fun _ => nofun, fun _ => ?_⟩
  rw [same]
  rfl

theorem unexpected (expected : Expectation) :
    Accords placed next left room closing least
      (liftM (Pass.unexpected expected : Pass α))
      (Pass.unexpected expected) :=
  refuses fun before =>
    ⟨.unexpected expected before.next?, .fails rfl, rfl⟩

/-- Nothing is done behind a failure. -/
theorem unexpected_bind (expected : Expectation)
    {later : α → Descent β} :
    Accords placed next left room closing least
      (liftM (Pass.unexpected expected : Pass α) >>= later)
      (Pass.unexpected expected) :=
  refuses fun before =>
    ⟨.unexpected expected before.next?, .fails rfl, rfl⟩

/-! ## Nodes -/

/-- A node is left, and what was found inside of it is yielded. -/
theorem leave {node : Node} (value : α) :
    Accords placed next left room [node] 0
      (do Descent.leave node; Pure.pure value) (Pure.pure value) := by
  intro floor before isAt opened
  have opened : before.depth = floor + 1 := opened
  have allowed : before.IsAllowed floor before.tokens.size :=
    isAt.isAllowed (by omega)
  refine ⟨_, .ok value, _, (Runs.leave opened).followedBy rfl (.done _ _),
    ?_, fun _ _ => ⟨rfl, Nat.le_refl _⟩, fun _ => rfl⟩
  refine .one allowed ⟨Nat.le_refl _, ?_, allowed.cursor_le⟩ (.walk _ _ _)
  exact Nat.le_trans allowed.floor_le allowed.depth_le

/-- A node is left behind the last step inside of it. -/
theorem yields {node : Node} {descent : Descent α} {pass : Pass α}
    (accords : Accords placed next left room [] least descent pass) :
    Accords placed next left room [node] least
      (do let value ← descent; Descent.leave node; Pure.pure value)
      pass := by
  have whole : pass >>= Pure.pure = pass := bind_pure pass
  rw [← whole]
  exact accords.andThen fun value => leave value

/-- There is nothing to yield behind a step that yields nothing. -/
theorem last {node : Node} {descent : Descent Unit} {pass : Pass Unit}
    (accords : Accords placed next left room [] least descent pass) :
    Accords placed next left room [node] least
      (do descent; Descent.leave node) pass :=
  accords.yields

theorem tooDeep {node : Node} {body : Descent α} :
    Accords placed next left 0 [] least
      (do enter node; body) (Pass.tooDeep node) := by
  intro floor before isAt opened
  have allowed := isAt.isAllowed opened.ge
  have full : ¬ before.depth < Node.maxDepth := by
    have noRoom := isAt.room_eq
    omega
  exact ⟨_, _, _, (Runs.enter_tooDeep full).followedBy_error rfl,
    .stay allowed, fun _ => nofun, fun _ => rfl⟩

/-- A node is entered where it fits, and one node less fits inside. -/
theorem within {node : Node} {body : Descent α} {passBody : Pass α}
    (inside : ∀ inner, room = inner + 1 →
      Accords placed next left inner [node] least body passBody)
    (fits : placed → 0 < room) :
    Accords placed next left room [] least
      (do enter node; body) (Pass.within node passBody) := by
  cases room with
  | zero =>
      exact tooDeep.of_eq fun holds => absurd (fits holds) (Nat.lt_irrefl 0)
  | succ inner =>
      intro floor before isAt opened
      have opened : before.depth = floor := opened
      have allowed := isAt.isAllowed opened.ge
      have roomLeft := isAt.room_eq
      have fitting : before.depth < Node.maxDepth := by omega
      let entered : DescentState := { before with
        walk := before.walk.push (.enter node)
        depth := before.depth + 1 }
      have isInside : entered.IsAt next left inner := by
        refine ⟨?_, ?_, isAt.cursor_le, isAt.size_le⟩
        · cases next with
          | none => trivial
          | some found => exact isAt.meets
        · change before.depth + 1 + inner = Node.maxDepth
          omega
      have course : Course floor before [entered] entered :=
        .one allowed ⟨Nat.le_succ_of_le opened.ge, fitting, isAt.cursor_le⟩
          (.walk _ _ _)
      obtain ⟨visited, result, behind, ran, courseInside, success, same⟩ :=
        inside inner rfl floor entered isInside (by
          change before.depth + 1 = floor + 1
          omega)
      refine ⟨_, result, behind, (Runs.enter fitting).followedBy rfl ran,
        course.append courseInside, success, ?_⟩
      intro holds
      rw [closed_nil, Pass.run_within, ← same holds]
      change _ = closed [node] (passBody.run (before.enter node))
      cases passBody.run (before.enter node) with
      | ok value outside => rfl
      | error cause outside => rfl

theorem within_succ {inner : Nat} {node : Node} {body : Descent α}
    {passBody : Pass α}
    (inside : Accords placed next left inner [node] least body passBody) :
    Accords placed next left (inner + 1) [] least
      (do enter node; body) (Pass.within node passBody) := by
  refine within (fun room same => ?_) fun _ => Nat.succ_pos inner
  obtain rfl := Nat.succ.inj same
  exact inside

/-! ## Looking ahead -/

/-- A small step that only looks at the state. -/
theorem looks {look : Pass β} {later : β → Descent α}
    {passLater : β → Pass α}
    (accords : ∀ before : DescentState, before.IsAt next left room →
      ∃ value further,
        look.run before.toPassState = .ok value before.toPassState ∧
          before.Meets further ∧
          Accords placed further left room closing least (later value)
            (passLater value)) :
    Accords placed next left room closing least
      (do let value ← liftM look; later value) (look >>= passLater) := by
  intro floor before isAt opened
  have allowed : before.IsAllowed floor before.tokens.size :=
    isAt.isAllowed (by omega)
  obtain ⟨value, further, looked, meets, accords⟩ := accords before isAt
  obtain ⟨visited, result, behind, ran, course, success, same⟩ :=
    accords floor before { isAt with meets := meets } opened
  refine ⟨_, result, behind, (Runs.liftM_ok looked).followedBy rfl ran,
    (Course.stay allowed).append course, success, ?_⟩
  rw [EStateM.run_bind, looked]
  exact same

theorem peek {later : Option Token → Descent α}
    {passLater : Option Token → Pass α}
    (accords : ∀ found, (found.isSome → 0 < left) →
      Accords placed (some found) left room closing least (later found)
        (passLater found)) :
    Accords placed next left room closing least
      (do let found ← liftM Pass.peek; later found)
      (Pass.peek >>= passLater) :=
  looks fun before isAt => ⟨before.next?, some before.next?, rfl, rfl,
    accords before.next? isAt.left_pos⟩

/-- The branch for a token that comes next, and the one for any other. -/
theorem ite_next {token : Token} {accepted refused : Descent α}
    {passAccepted passRefused : Pass α}
    (isNext : 0 < left → Accords placed (some (some token)) left room closing
      least accepted passAccepted)
    (isNot : ∀ found, found ≠ some token →
      Accords placed (some found) left room closing least refused
        passRefused) :
    Accords placed next left room closing least
      (do if ← liftM (Pass.nextIs token) then accepted else refused)
      (do if ← Pass.nextIs token then passAccepted else passRefused) := by
  refine looks fun before isAt =>
    ⟨before.next? == some token, some before.next?, rfl, rfl, ?_⟩
  by_cases same : before.next? = some token
  · have leftOver := isAt.left_pos (Option.isSome_of_eq_some same)
    simpa [same] using isNext leftOver
  · have different : (before.next? == some token) = false :=
      beq_eq_false_iff_ne.mpr same
    simpa [different] using isNot before.next? same

/-- Resolving a name leaves the next token where it is. -/
theorem require_bind (scope : Scope) (name : String)
    {later : Variable → Descent β} {passLater : Variable → Pass β}
    (accords : ∀ resolved, Accords placed next left room closing least
      (later resolved) (passLater resolved)) :
    Accords placed next left room closing least
      (liftM (Pass.require scope name) >>= later)
      (Pass.require scope name >>= passLater) := by
  unfold Pass.require
  cases scope.resolve? name with
  | some resolved =>
      exact looks fun before isAt =>
        ⟨resolved, next, rfl, isAt.meets, accords resolved⟩
  | none =>
      exact refuses fun before => ⟨.unresolved name, .fails rfl, rfl⟩

/-! ## Tokens that are asked for -/

theorem expectKeyword (reserved : Keyword) :
    Accords placed next left room [] 1 (Descent.expectKeyword reserved)
      (Pass.expectKeyword reserved) :=
  ite_next (fun _ => advance) fun _ _ => unexpected _

theorem expectSymbol (sign : Symbol) :
    Accords placed next left room [] 1 (Descent.expectSymbol sign)
      (Pass.expectSymbol sign) :=
  ite_next (fun _ => advance) fun _ _ => unexpected _

theorem expectName (role : NameRole) :
    Accords placed next left room [] 1 (Descent.expectName role)
      (Pass.expectName role) := by
  refine peek fun found _ => ?_
  match found with
  | some (.identifier name) => exact bind advance fun _ => pure name
  | none | some (.keyword _) | some (.symbol _) => exact unexpected _
  | some (.integer _) | some (.string _) => exact unexpected _

theorem expectType :
    Accords placed next left room [] 1 Descent.expectType
      Pass.expectType := by
  refine peek fun found _ => ?_
  cases selected : found.bind TypeName.ofToken? with
  | none => exact unexpected _
  | some type =>
      obtain ⟨token, rfl, _⟩ := Option.bind_eq_some_iff.mp selected
      exact bind advance fun _ => pure type

theorem expectResultType :
    Accords placed next left room [] 1 Descent.expectResultType
      Pass.expectResultType := by
  refine ite_next (fun _ => advance) fun _ _ => ?_
  refine peek fun found _ => ?_
  cases selected : found.bind TypeName.ofToken? with
  | none => exact unexpected _
  | some type =>
      obtain ⟨token, rfl, _⟩ := Option.bind_eq_some_iff.mp selected
      exact advance

/-! ## What is written -/

theorem emit (commands : List Command) :
    Accords placed next left room [] 0
      (liftM (Pass.emit commands)) (Pass.emit commands) := by
  refine writes (fun state => ?_) fun _ => rfl
  refine { PassState.Extends.refl state with code_prefix := ?_ }
  change state.code.toList <+: (state.code ++ commands).toList
  rw [Array.toList_appendList]
  exact List.prefix_append _ _

theorem takeLabels (kind : LabelKind) :
    Accords placed next left room [] 0
      (liftM (Pass.takeLabels kind)) (Pass.takeLabels kind) := by
  refine writes (fun state => ?_) fun state => ?_
  · rw [Pass.run_takeLabels]
    cases available : state.labels.take? kind with
    | none => exact .refl state
    | some taken =>
        obtain ⟨labels, counters⟩ := taken
        have ⟨_, advanced, _⟩ :=
          LabelCounters.take?_eq_some_iff.mp available
        refine { PassState.Extends.refl state with
          used_le := fun asked => ?_ }
        change state.labels.used asked ≤ counters.used asked
        rw [advanced, LabelCounters.used_advance]
        exact Nat.le_add_right _ _
  · rw [Pass.run_takeLabels]
    cases state.labels.take? kind <;> rfl

theorem addArguments (target : String) (count more : Nat) :
    Accords placed next left room [] 0
      (liftM (Pass.addArguments target count more))
      (Pass.addArguments target count more) := by
  refine checks fun state => ?_
  unfold Pass.addArguments
  split <;> rfl

theorem declare (name type : String) (kind : VariableKind)
    (table : SymbolTable) :
    Accords placed next left room [] 0
      (liftM (Pass.declare name type kind table))
      (Pass.declare name type kind table) := by
  refine checks fun state => ?_
  unfold Pass.declare
  split <;> rfl

theorem implicitArguments (kind : SubroutineKind) (className : String) :
    Accords placed next left room [] 0
      (liftM (Pass.implicitArguments kind className))
      (Pass.implicitArguments kind className) := by
  cases kind with
  | method => exact declare _ className .argument SymbolTable.empty
  | «constructor» => exact checks fun _ => rfl
  | «function» => exact checks fun _ => rfl

theorem finish (finished : String × SymbolTable) :
    Accords placed next left room [] 0 (Descent.finish finished)
      (modify fun state =>
        { state with subroutines := state.subroutines.push finished }) := by
  intro floor before isAt opened
  have allowed := isAt.isAllowed opened.ge
  refine ⟨_, .ok (), _, .acts rfl (.done _ _),
    .one allowed ⟨allowed.floor_le, allowed.depth_le, allowed.cursor_le⟩ ?_,
    fun _ _ => ⟨opened, Nat.le_refl _⟩, fun _ => rfl⟩
  refine { PassState.Extends.refl before.toPassState with
    subroutines_prefix := ?_ }
  rw [Array.toList_push]
  exact List.prefix_append _ _

/-! ## Calls and loops -/

theorem call {procedure : Procedure} {pass : Pass procedure.Output}
    (accords : Accords placed next left room [] least procedure.body pass) :
    Accords placed next left room [] least (Descent.call procedure)
      pass := by
  intro floor before isAt opened
  obtain ⟨visited, result, behind, ran, course, success, same⟩ :=
    accords floor before isAt opened
  refine ⟨visited, result, behind, .calls ?_, course, success, same⟩
  rwa [followedBy_done]

/-- A loop does what its first round does, and goes on behind it. -/
theorem unroll {γ : Type} {round : β → Descent (β ⊕ γ)} {first : β}
    {pass : Pass γ}
    (accords : Accords placed next left room closing least
      (round first >>= behindRound round done) pass) :
    Accords placed next left room closing least (loop round first)
      pass := by
  intro floor before isAt opened
  obtain ⟨visited, result, behind, ran, course, success, same⟩ :=
    accords floor before isAt opened
  exact ⟨visited, result, behind, .loops ran, course, success, same⟩

/-- There are enough rounds in a pass that makes as many as there are tokens
left. -/
theorem repeatWhile_of_atMost {wanted : Token → Option α}
    {body : α → β → Pass β} {descent : Descent β} {result : β}
    (accords : ∀ count left, left ≤ count →
      Accords placed next left room closing least descent
        (Pass.repeatAtMost wanted body count result)) :
    Accords placed next left room closing least descent
      (Pass.repeatWhile wanted body result) := by
  intro floor before isAt opened
  have enough : before.tokens.size ≤ before.cursor + before.remaining := by
    unfold PassState.remaining
    omega
  exact accords before.remaining before.remaining (Nat.le_refl _) floor
    before { isAt with size_le := enough } opened

/-- A loop ends that goes on for as long as a token is wanted, because each of
its rounds takes a token. -/
theorem repeatWhile {wanted : Token → Option α}
    {round : α → β → Descent β} {body : α → β → Pass β}
    (rounds : ∀ {token choice} left result, wanted token = some choice →
      Accords placed (some (some token)) left room [] 1
        (round choice result) (body choice result)) (result : β) :
    Accords placed next left room [] 0
      (Descent.repeatWhile wanted round result)
      (Pass.repeatWhile wanted body result) := by
  refine repeatWhile_of_atMost fun count => ?_
  induction count generalizing next result with
  | zero =>
      intro left few
      refine unroll ?_
      rw [bind_assoc, Pass.repeatAtMost]
      have looked : (Pure.pure result : Pass β) =
          Pass.peek >>= fun _ => Pure.pure result := rfl
      rw [looked]
      refine peek fun found leftOver => ?_
      cases found with
      | none => exact pure result
      | some token => exact absurd (leftOver rfl) (by omega)
  | succ count inductionHypothesis =>
      intro left few
      refine unroll ?_
      rw [bind_assoc, Pass.repeatAtMost]
      refine peek fun found leftOver => ?_
      cases selected : found.bind wanted with
      | none => exact pure result
      | some choice =>
          obtain ⟨token, rfl, chosen⟩ :=
            Option.bind_eq_some_iff.mp selected
          dsimp only
          rw [bind_assoc]
          refine bind (rounds left result chosen) fun value => ?_
          have fewer := leftOver rfl
          exact inductionHypothesis value (left - 1) (by omega)

/-- A list does what its first item does, and goes on behind it. -/
theorem unrollItems {item : β → Descent β} {result : β} {pass : Pass β}
    (accords : Accords placed next left room closing least
      (item result >>= Descent.furtherItems item) pass) :
    Accords placed next left room closing least
      (Descent.commaSeparated item result) pass := by
  refine unroll ?_
  rw [bind_assoc]
  refine cast (congrArg (fun later =>
    Accords placed next left room closing least (item result >>= later) pass)
    (funext fun behind => ?_)) accords
  rw [Descent.furtherItems, bind_assoc]
  refine bind_congr fun isNext => ?_
  cases isNext <;> rfl

section Items

variable {item : β → Descent β} {part : β → Pass β}
variable (parts : ∀ {next left} result,
  Accords placed next left room [] 1 (item result) (part result))

include parts

/-- Behind an item there are no more commas than tokens left. -/
theorem furtherItems (count : Nat) (result : β) (few : left ≤ count) :
    Accords placed next left room [] 0 (Descent.furtherItems item result)
      (Pass.repeatAtMost (Pass.exactly (.symbol .comma))
        (fun () result => do Pass.advance; part result) count result) := by
  induction count generalizing next left result with
  | zero =>
      have looked : (Pure.pure result : Pass β) = (do
          if ← Pass.nextIs (.symbol .comma) then
            Pure.pure result
          else
            Pure.pure result) := by
        simp only [ite_self]
        rfl
      rw [Pass.repeatAtMost, looked]
      exact ite_next (fun leftOver => absurd leftOver (by omega))
        fun _ _ => pure result
  | succ count inductionHypothesis =>
      rw [Pass.repeatAtMost_exactly_succ]
      refine ite_next (fun leftOver => ?_) fun _ _ => pure result
      rw [bind_assoc]
      refine bind advance fun _ => unrollItems ?_
      refine bind ((parts result).weaken (Nat.zero_le _)) fun behind => ?_
      exact inductionHypothesis behind (by omega)

/-- Items with commas between them are read one by one, and every one of them
takes a token. -/
theorem commaSeparated (result : β) :
    Accords placed next left room [] 1 (Descent.commaSeparated item result)
      (Pass.commaSeparated part result) := by
  refine unrollItems (bind (parts result) fun behind => ?_)
  exact repeatWhile_of_atMost fun count _ => furtherItems parts count behind

end Items

end Accords

end Descent

end JackToVm
