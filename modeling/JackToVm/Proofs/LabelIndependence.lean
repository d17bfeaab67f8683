import JackToVm.Proofs.Compilation
import JackToVm.Proofs.Relabeling
import JackToVm.Proofs.Requests

/-!
# Compilation behind other label numbers

A class does not depend on the numbers that a run has handed out before it,
except in the numbers of its own labels. With any two states of the label
counters that do not refuse it a number, it is refused for the same reason, or
compiled to the same program with shifted labels. The derivation tree is found
behind fresh counters, so a class that has one is refused only for want of a
number.
-/

namespace JackToVm

/-! ## Counters behind a pass -/

theorem LabelCounters.eq_advance {labels behind : LabelCounters}
    {numbers : NumbersUsed}
    (used : ∀ kind, behind.used kind = labels.used kind + numbers kind) :
    behind = labels.advance numbers := by
  have whiles := congrArg Counter.mk (used .while)
  have ifs := congrArg Counter.mk (used .if)
  exact congrArg₂ LabelCounters.mk whiles ifs

theorem LabelCounters.advance_injective {labels : LabelCounters}
    {first second : NumbersUsed}
    (same : labels.advance first = labels.advance second) :
    first = second := by
  funext kind
  have used := congrFun (congrArg LabelCounters.used same) kind
  rw [used_advance, used_advance] at used
  exact Nat.add_left_cancel used

section Pass

variable {tokens : List Token} {labels : LabelCounters}
variable {cause : CompileError}

theorem compile_snd :
    (compile tokens labels).2 =
      (Pass.finalState (runPass tokens labels)).labels := by
  unfold compile
  cases runPass tokens labels <;> rfl

theorem compile_eq_error_iff :
    (compile tokens labels).1 = .error cause ↔
      Pass.cause? (runPass tokens labels) = some cause := by
  unfold compile
  cases runPass tokens labels with
  | ok head final => simp [Pass.cause?]
  | error refusal final => simp [Pass.cause?]

theorem derivation_eq_error_iff :
    derivation tokens = .error cause ↔
      Pass.cause? (runPass tokens .initial) = some cause := by
  unfold derivation
  cases runPass tokens .initial with
  | ok head final => simp [Pass.cause?]
  | error refusal final => simp [Pass.cause?]

/-- The counters refuse a class no number. -/
def Served (tokens : List Token) (labels : LabelCounters) : Prop :=
  ∀ kind, (compile tokens labels).1 ≠ .error (.limit (.labels kind))

/-- The counters behind a class that is refused no number have gone on by the
loops and branches that the pass has read. -/
theorem Served.compile_snd_eq (served : Served tokens labels) :
    (compile tokens labels).2 = labels.advance fun kind =>
      (Pass.finalState (runPass tokens labels)).asked.count kind := by
  have serves := runPass_serves tokens labels
  rw [compile_snd]
  apply LabelCounters.eq_advance
  intro kind
  apply serves.used_eq
  intro refused
  obtain ⟨limit, failed, sameKind⟩ := Option.bind_eq_some_iff.mp refused
  rw [CompileError.refused?_eq_some_iff.mp sameKind] at failed
  exact served kind (compile_eq_error_iff.mpr failed)

end Pass

/-! ## Two passes over the same tokens -/

section TwoPasses

variable {tokens : List Token} {first second : LabelCounters}

/-- Two passes that are refused no number read the same and fail for the same
reason, if they fail. -/
theorem Served.same_ends (served : Served tokens first)
    (otherServed : Served tokens second) :
    Pass.cause? (runPass tokens first) =
        Pass.cause? (runPass tokens second) ∧
      (Pass.finalState (runPass tokens first)).asked =
        (Pass.finalState (runPass tokens second)).asked := by
  have ends := runPass_alike tokens first second
  have sameRead : ∀ {one other : PassState},
      Pass.AlikeStates (fun _ _ => True) one other →
      one.asked = other.asked := by
    intro one other states
    unfold PassState.asked PassState.read
    rw [states.tokens_eq, states.cursor_eq]
  have kept : ∀ kind,
      Pass.cause? (runPass tokens first) ≠ some (.limit (.labels kind)) :=
    fun kind failed => served kind (compile_eq_error_iff.mpr failed)
  have otherKept : ∀ kind,
      Pass.cause? (runPass tokens second) ≠ some (.limit (.labels kind)) :=
    fun kind failed => otherServed kind (compile_eq_error_iff.mpr failed)
  generalize runPass tokens first = ending at ends kept ⊢
  generalize runPass tokens second = otherEnding at ends otherKept ⊢
  cases ends with
  | ok states => exact ⟨rfl, sameRead states⟩
  | error _ states => exact ⟨rfl, sameRead states⟩
  | @refusedFirst kind _ _ _ => exact absurd rfl (kept kind)
  | @refusedSecond kind _ _ _ => exact absurd rfl (otherKept kind)

theorem Served.exists_numbers (served : Served tokens first)
    (otherServed : Served tokens second) :
    ∃ numbers : NumbersUsed,
      (compile tokens first).2 = first.advance numbers ∧
        (compile tokens second).2 = second.advance numbers := by
  have sameRead := (served.same_ends otherServed).2
  refine ⟨_, served.compile_snd_eq, ?_⟩
  rw [otherServed.compile_snd_eq, sameRead]

/-- A class that is compiled behind two states of the counters is compiled to
the same program with shifted labels. -/
theorem relabel_of_compile {program other : Program}
    (compiled : (compile tokens first).1 = .ok program)
    (compiledOther : (compile tokens second).1 = .ok other) :
    other = program.relabel (first.shift second) := by
  have served : Served tokens first := by
    intro kind refused
    rw [compiled] at refused
    cases refused
  have otherServed : Served tokens second := by
    intro kind refused
    rw [compiledOther] at refused
    cases refused
  obtain ⟨numbers, advanced, advancedOther⟩ :=
    served.exists_numbers otherServed
  obtain ⟨declared, rfl, admissible, _, rfl, ofClass⟩ :=
    exists_program_of_compile compiled
  obtain ⟨again, _, _, allowedAgain, _, ofAgain⟩ :=
    exists_program_of_compile compiledOther
  -- Both trees have the same tokens, so their numbers are the same.
  have sameNumbers : again.count = declared.count := by
    rw [ofClass] at advanced
    rw [ofAgain] at advancedOther
    rw [LabelCounters.advance_injective advanced,
      LabelCounters.advance_injective advancedOther]
  rw [sameNumbers] at allowedAgain
  have whole : compile declared.derivation.yield second = _ :=
    compile_of_runPass (runPass_tokens admissible allowedAgain)
  rw [whole] at compiledOther
  obtain rfl := Except.ok.inj compiledOther
  exact (declared.relabel_program (first.shifts second)).symm

end TwoPasses

end JackToVm
