import JackToVm.Compilation.Course
import JackToVm.Proofs.Passage
import Mathlib.Data.List.Infix

/-!
# Courses and runs

Courses are put one behind another, and so are the runs of programs. A program
runs in one way only.
-/

namespace JackToVm

/-! ## Courses -/

namespace PassState.Extends

variable {before between behind : PassState}

theorem refl (state : PassState) : state.Extends state where
  tokens_eq := rfl
  walk_prefix := List.prefix_refl _
  code_prefix := List.prefix_refl _
  subroutines_prefix := List.prefix_refl _
  used_le _ := Nat.le_refl _

theorem trans (first : between.Extends before)
    (second : behind.Extends between) : behind.Extends before where
  tokens_eq := second.tokens_eq.trans first.tokens_eq
  walk_prefix := first.walk_prefix.trans second.walk_prefix
  code_prefix := first.code_prefix.trans second.code_prefix
  subroutines_prefix :=
    first.subroutines_prefix.trans second.subroutines_prefix
  used_le kind := Nat.le_trans (first.used_le kind) (second.used_le kind)

/-- The walk goes on by a step. -/
theorem walk (state : PassState) (cursor : Nat) (step : Step) :
    { state with cursor := cursor, walk := state.walk.push step }.Extends
      state :=
  { refl state with
    walk_prefix := by
      rw [Array.toList_push]
      exact List.prefix_append _ _ }

end PassState.Extends

namespace Course

variable {floor lower : Nat} {visited others : List DescentState}
variable {before between behind : DescentState}

theorem refl (allowed : before.IsAllowed floor before.tokens.size) :
    Course floor before [] before where
  extends_before := .refl _
  behind_mem := List.mem_singleton_self before
  allowed _ member := List.mem_singleton.mp member ▸ allowed

/-- A course of one small step. -/
theorem one (allowed : before.IsAllowed floor before.tokens.size)
    (allowedBehind : behind.IsAllowed floor before.tokens.size)
    (extended : behind.Extends before.toPassState) :
    Course floor before [behind] behind where
  extends_before := extended
  behind_mem := List.mem_cons_of_mem _ (List.mem_singleton_self behind)
  allowed state member := by
    rcases List.mem_cons.mp member with rfl | member
    · exact allowed
    · exact List.mem_singleton.mp member ▸ allowedBehind

/-- A small step that changes nothing. -/
theorem stay (allowed : before.IsAllowed floor before.tokens.size) :
    Course floor before [before] before :=
  one allowed allowed (.refl _)

theorem append (course : Course floor before visited between)
    (courseBehind : Course floor between others behind) :
    Course floor before (visited ++ others) behind where
  extends_before := course.extends_before.trans courseBehind.extends_before
  behind_mem := by
    rw [← List.cons_append, List.mem_append]
    rcases List.mem_cons.mp courseBehind.behind_mem with same | member
    · exact Or.inl (same ▸ course.behind_mem)
    · exact Or.inr member
  allowed := by
    intro state member
    rw [← List.cons_append, List.mem_append] at member
    rcases member with member | member
    · exact course.allowed state member
    · have allowed := courseBehind.allowed state
        (List.mem_cons_of_mem _ member)
      rwa [course.extends_before.tokens_eq] at allowed

theorem isAllowed_behind (course : Course floor before visited behind) :
    behind.IsAllowed floor behind.tokens.size :=
  course.extends_before.tokens_eq ▸ course.allowed behind course.behind_mem

theorem lower_floor (course : Course floor before visited behind)
    (below : lower ≤ floor) : Course lower before visited behind :=
  { course with
    allowed := fun state member =>
      have allowed := course.allowed state member
      ⟨Nat.le_trans below allowed.floor_le, allowed.depth_le,
        allowed.cursor_le⟩ }

end Course

namespace Descent

variable {α β γ : Type}

theorem followedBy_done (descent : Descent α) :
    descent.followedBy done = descent := by
  induction descent with
  | done value => rfl
  | acts action later inductionHypothesis =>
      exact congrArg (acts action) (funext inductionHypothesis)
  | calls procedure later inductionHypothesis =>
      exact congrArg (calls procedure) (funext inductionHypothesis)
  | loops round first later _ inductionHypothesis =>
      exact congrArg (loops round first) (funext inductionHypothesis)

theorem followedBy_assoc (descent : Descent α) (others : α → Descent β)
    (last : β → Descent γ) :
    (descent.followedBy others).followedBy last =
      descent.followedBy fun value => (others value).followedBy last := by
  induction descent with
  | done value => rfl
  | acts action later inductionHypothesis =>
      exact congrArg (acts action) (funext fun value =>
        inductionHypothesis value others)
  | calls procedure later inductionHypothesis =>
      exact congrArg (calls procedure) (funext fun value =>
        inductionHypothesis value others)
  | loops round first later _ inductionHypothesis =>
      exact congrArg (loops round first) (funext fun value =>
        inductionHypothesis value others)

theorem behindRound_followedBy {δ : Type} (round : β → Descent (β ⊕ γ))
    (later : γ → Descent α) (last : α → Descent δ) :
    (fun value => (behindRound round later value).followedBy last) =
      behindRound round fun value => (later value).followedBy last := by
  funext value
  cases value <;> rfl

instance : LawfulMonad Descent :=
  .mk' Descent followedBy_done (fun _ _ => rfl) followedBy_assoc

/-! ## Runs -/

namespace Runs

variable {before between behind : DescentState}
variable {visited others : List DescentState}

/-- What one program does behind another that has succeeded. -/
theorem followedBy {first : Descent α} {outcome : Except CompileError α}
    (ran : first.Runs before visited outcome between)
    {later : α → Descent β} {value : α} {result : Except CompileError β}
    (succeeded : outcome = .ok value)
    (ranLater : (later value).Runs between others result behind) :
    (first.followedBy later).Runs before (visited ++ others) result
      behind := by
  -- What stands behind a call or a loop is followed by `later` as well.
  induction ran with
  | done value state =>
      cases succeeded
      exact ranLater
  | acts acted _ inductionHypothesis =>
      exact .acts acted (inductionHypothesis succeeded ranLater)
  | fails _ => cases succeeded
  | calls _ inductionHypothesis =>
      have ran := inductionHypothesis succeeded ranLater
      rw [followedBy_assoc] at ran
      exact .calls ran
  | loops _ inductionHypothesis =>
      have ran := inductionHypothesis succeeded ranLater
      rw [followedBy_assoc, behindRound_followedBy] at ran
      exact .loops ran

/-- Nothing is done behind a failure. -/
theorem followedBy_error {first : Descent α}
    {outcome : Except CompileError α}
    (ran : first.Runs before visited outcome behind)
    {later : α → Descent β} {cause : CompileError}
    (failed : outcome = .error cause) :
    (first.followedBy later).Runs before visited (.error cause) behind := by
  induction ran with
  | done value state => cases failed
  | acts acted _ inductionHypothesis =>
      exact .acts acted (inductionHypothesis failed)
  | fails acted =>
      cases failed
      exact .fails acted
  | calls _ inductionHypothesis =>
      have ran := inductionHypothesis failed
      rw [followedBy_assoc] at ran
      exact .calls ran
  | loops _ inductionHypothesis =>
      have ran := inductionHypothesis failed
      rw [followedBy_assoc, behindRound_followedBy] at ran
      exact .loops ran

/-! ### Small steps -/

theorem advance {token : Token} (found : before.next? = some token) :
    let behind : DescentState := { before with
      cursor := before.cursor + 1
      walk := before.walk.push (.leaf token) }
    Descent.advance.Runs before [behind] (.ok ()) behind := by
  refine .acts ?_ (.done _ _)
  simp only [found]

theorem enter {node : Node} (fits : before.depth < Node.maxDepth) :
    let behind : DescentState := { before with
      walk := before.walk.push (.enter node)
      depth := before.depth + 1 }
    (Descent.enter node).Runs before [behind] (.ok ()) behind :=
  .acts (if_pos fits) (.done _ _)

theorem enter_tooDeep {node : Node}
    (full : ¬ before.depth < Node.maxDepth) :
    (Descent.enter node).Runs before [before]
      (.error (.limit (.depth node))) before :=
  .fails (if_neg full)

theorem leave {node : Node} {depth : Nat}
    (opened : before.depth = depth + 1) :
    let behind : DescentState := { before with
      walk := before.walk.push (.leave node)
      depth := depth }
    (Descent.leave node).Runs before [behind] (.ok ()) behind := by
  refine .acts ?_ (.done _ _)
  simp only [opened]

theorem liftM_ok {pass : Pass α} {value : α} {behind : PassState}
    (ran : pass.run before.toPassState = .ok value behind) :
    (liftM pass : Descent α).Runs before
      [{ before with toPassState := behind }] (.ok value)
      { before with toPassState := behind } := by
  have acted : passing pass before =
      some (.ok value, { before with toPassState := behind }) := by
    rw [passing, ran]
  exact .acts acted (.done _ _)

theorem liftM_error {pass : Pass α} {cause : CompileError}
    {behind : PassState}
    (ran : pass.run before.toPassState = .error cause behind) :
    (liftM pass : Descent α).Runs before
      [{ before with toPassState := behind }] (.error cause)
      { before with toPassState := behind } := by
  have acted : passing pass before =
      some (.error cause, { before with toPassState := behind }) := by
    rw [passing, ran]
  exact .fails acted

/-- A program runs in one way only. -/
theorem unique {descent : Descent α} {result outcome : Except CompileError α}
    {last : DescentState} (ran : descent.Runs before visited result behind)
    (other : descent.Runs before others outcome last) :
    others = visited ∧ outcome = result ∧ last = behind := by
  induction ran generalizing others with
  | done value state =>
      cases other
      exact ⟨rfl, rfl, rfl⟩
  | acts acted _ inductionHypothesis =>
      cases other with
      | acts otherActed ran =>
          cases acted.symm.trans otherActed
          obtain ⟨rfl, rfl, rfl⟩ := inductionHypothesis ran
          exact ⟨rfl, rfl, rfl⟩
      | fails otherActed => cases acted.symm.trans otherActed
  | fails acted =>
      cases other with
      | acts otherActed ran => cases acted.symm.trans otherActed
      | fails otherActed =>
          cases acted.symm.trans otherActed
          exact ⟨rfl, rfl, rfl⟩
  | calls _ inductionHypothesis =>
      cases other with
      | calls ran => exact inductionHypothesis ran
  | loops _ inductionHypothesis =>
      cases other with
      | loops ran => exact inductionHypothesis ran

end Runs

end Descent

end JackToVm
