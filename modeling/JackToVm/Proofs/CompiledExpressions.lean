import JackToVm.Proofs.Declarations
import JackToVm.Proofs.ExpressionExecution
import JackToVm.Proofs.ExpressionRecognition

/-!
# Compiled expressions

Whatever a pass compiles as an expression is one, and the commands that are
written for it push its value, in every scope and on every machine.
-/

namespace JackToVm

open Passage

theorem Scope.declares_names (scope : Scope) :
    scope.Declares
      (scope.subroutineTable.names ++ scope.classTable.names) := by
  intro name
  rw [Scope.resolve?, Option.isSome_or, Bool.or_eq_true,
    SymbolTable.isSome_lookup?_iff, SymbolTable.isSome_lookup?_iff,
    ← List.mem_append]

theorem Expression.tokens_passage (scope : Scope) (whole : Expression) :
    ((whole.passage scope).inside .expression).tokens =
      whole.derivation.yield :=
  whole.derivation.tokens_walk

/-- The commands that are written for an expression put its value on top of
the stack, and change nothing else than its evaluation does. -/
theorem expression_run_computes {scope : Scope} {room : Nat}
    {before behind : PassState}
    (run : (Pass.expression scope room).run before = .ok () behind) :
    ∃ (whole : Expression) (commands : List Command),
      before.rest = whole.derivation.yield ++ behind.rest ∧
      behind.code.toList = before.code.toList ++ commands ∧
      ∀ (callees : Callees) (machine : Machine),
        ∃ (value : Word) (final : Machine),
          machine.runAll? callees commands = some final ∧
          whole.evaluate callees scope machine.toStore =
            (value, final.toStore) ∧
          final.stack = value :: machine.stack := by
  obtain ⟨whole, admissible, _, connects⟩ :=
    (Pass.recognizesExpressions scope.declares_names room).expression run
  refine ⟨whole, whole.code scope, ?_, ?_, ?_⟩
  · rw [connects.rest_eq, whole.tokens_passage]
  · rw [connects.behind_eq]
    simp [PassState.after]
    rfl
  · intro callees machine
    obtain ⟨final, executed, finalStore, finalStack⟩ :=
      Executes.expression scope.declares_names whole machine.toStore
        admissible machine machine.stack rfl rfl
    refine ⟨(whole.evaluate callees scope machine.toStore).1, final,
      executed, ?_, finalStack⟩
    rw [finalStore]

/-- The sum of a variable and of the result of a call with that variable. -/
def Expression.sumWithCall : Expression :=
  .binary (.term (.variable "step")) .add
    (.call (.own "run" (.cons (.term (.variable "step")) .nil)))

/-- The scope of a function with one local variable. -/
def Scope.ofStep : Scope where
  className := "Main"
  classTable := SymbolTable.empty
  subroutineTable := SymbolTable.empty.addAll [⟨"step", .int, .local⟩]

theorem Expression.sumWithCall_run :
    ∃ behind, (Pass.expression Scope.ofStep Node.maxDepth).run
        (PassState.start
          (sumWithCall.derivation.yield ++ [.symbol .semicolon])
          LabelCounters.initial) = .ok () behind := by
  have takes :
      SymbolTable.empty.TakesAll [⟨"step", .int, .local⟩] :=
    SymbolTable.takesAll_empty_iff.mpr
      ⟨by decide, fun kind => by cases kind <;> decide⟩
  have member :
      "step" ∈ Scope.ofStep.subroutineTable.names ++
        Scope.ofStep.classTable.names := by
    rw [Scope.ofStep, SymbolTable.names_addAll_empty takes]
    exact List.mem_cons_self
  have admissible :
      sumWithCall.Admissible
        (Scope.ofStep.subroutineTable.names ++
          Scope.ofStep.classTable.names) :=
    ⟨member, by decide, member, trivial⟩
  have next :
      (PassState.start
          (sumWithCall.derivation.yield ++ [.symbol .semicolon])
          LabelCounters.initial).rest =
        ((sumWithCall.passage Scope.ofStep).inside .expression).tokens ++
          [.symbol .semicolon] := by
    rw [PassState.rest_start, sumWithCall.tokens_passage]
  obtain ⟨connects, ended⟩ :=
    Connects.of_rest next fun _ => Nat.zero_le _
  have ends : EndsExpression [Token.symbol .semicolon].head? :=
    EndsExpression.semicolon
  exact ⟨_, Pass.reads_expression Scope.ofStep.declares_names sumWithCall
    admissible (by decide) ends _ _ connects rfl ended⟩

theorem expression_run_computes_sumWithCall :
    ∃ behind : PassState,
      (Pass.expression Scope.ofStep Node.maxDepth).run
          (PassState.start
            (Expression.sumWithCall.derivation.yield ++
              [.symbol .semicolon])
            LabelCounters.initial) = .ok () behind ∧
        ∃ (whole : Expression) (commands : List Command),
          Expression.sumWithCall.derivation.yield ++
              [.symbol .semicolon] =
            whole.derivation.yield ++ behind.rest ∧
          behind.code.toList = commands ∧
          ∀ (callees : Callees) (machine : Machine),
            ∃ (value : Word) (final : Machine),
              machine.runAll? callees commands = some final ∧
              whole.evaluate callees Scope.ofStep machine.toStore =
                (value, final.toStore) ∧
              final.stack = value :: machine.stack := by
  obtain ⟨behind, run⟩ := Expression.sumWithCall_run
  refine ⟨behind, run, ?_⟩
  obtain ⟨whole, commands, read, written, computes⟩ :=
    expression_run_computes run
  rw [PassState.rest_start] at read
  exact ⟨whole, commands, read, written, computes⟩

end JackToVm
