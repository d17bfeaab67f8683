import JackToVm.Proofs.ClassRecognition
import JackToVm.Token.Piece

/-!
# Compilation and the grammar

The pass over a token list and the trees of the grammar agree in both
directions: a token list is compiled exactly if it is the yield of the tree of
one admissible class for which there are label numbers left, and then the
program is the one that is computed from the finished tree.
-/

namespace JackToVm

/-- A token list is compiled exactly if it derives from an admissible class,
and from nothing before or behind it. -/
theorem exists_compile_eq_ok_iff (tokens : List Token)
    (labels : LabelCounters) :
    (∃ program, (compile tokens labels).1 = .ok program) ↔
      ∃ declared : ClassDeclaration, declared.derivation.yield = tokens ∧
        declared.Admissible ∧ labels.Allow declared.count := by
  constructor
  · intro compiled
    obtain ⟨program, compiled⟩ := compiled
    cases run : runPass tokens labels with
    | ok head final =>
        obtain ⟨declared, admissible, rfl, allowed⟩ :=
          recognizes_runPass run
        exact ⟨declared, rfl, admissible, allowed⟩
    | error cause final =>
        rw [compile, run] at compiled
        cases compiled
  · intro derives
    obtain ⟨declared, rfl, admissible, allowed⟩ := derives
    have compiled := compile_of_runPass (runPass_tokens admissible allowed)
    exact ⟨declared.program labels.used, congrArg Prod.fst compiled⟩

/-- The program of the pass is the program of the tree, and every loop and
branch of the tree has taken one number. -/
theorem compile_yield_eq (declared : ClassDeclaration)
    (labels : LabelCounters) (admissible : declared.Admissible)
    (allowed : labels.Allow declared.count) :
    compile declared.derivation.yield labels =
      (.ok (declared.program labels.used),
        labels.advance declared.count) :=
  compile_of_runPass (runPass_tokens admissible allowed)

/-- What is compiled is the program of an admissible class, and the label
counters have gone on by its loops and branches. -/
theorem exists_program_of_compile {tokens : List Token}
    {labels : LabelCounters} {program : Program}
    (compiled : (compile tokens labels).1 = .ok program) :
    ∃ declared : ClassDeclaration, declared.derivation.yield = tokens ∧
      declared.Admissible ∧ labels.Allow declared.count ∧
      program = declared.program labels.used ∧
      (compile tokens labels).2 = labels.advance declared.count := by
  cases run : runPass tokens labels with
  | error cause final =>
      rw [compile, run] at compiled
      cases compiled
  | ok head final =>
      obtain ⟨declared, admissible, rfl, allowed⟩ :=
        recognizes_runPass run
      have whole := compile_of_runPass (runPass_tokens admissible allowed)
      rw [whole] at compiled
      obtain rfl := Except.ok.inj compiled
      exact ⟨declared, rfl, admissible, allowed, rfl,
        congrArg Prod.snd whole⟩

/-- A class with a loop, a branch and variables of every kind but one. -/
def ClassDeclaration.countdown : ClassDeclaration where
  name := "Countdown"
  declarations := [⟨⟨.int, "left", []⟩, .field⟩]
  subroutines :=
    [{  kind := .method
        result := some .int
        name := "run"
        parameters := [⟨.int, "step"⟩]
        declarations := [⟨.int, "turns", []⟩]
        body :=
          .cons
            (.whileLoop (.term (.variable "left"))
              (.cons
                (.ifThen
                  (.binary (.term (.variable "left")) .less
                    (.variable "step"))
                  (.cons (.returnValue (.term (.variable "turns"))) .nil))
                (.cons
                  (.letVariable "left"
                    (.binary (.term (.variable "left")) .subtract
                      (.variable "step")))
                  .nil)))
            (.cons (.returnValue (.term (.variable "turns"))) .nil) }]

theorem ClassDeclaration.countdown_admissible : countdown.Admissible where
  names_nodup := by decide
  variables_le := by
    intro kind
    cases kind <;> decide
  subroutines := by
    intro subroutine member
    obtain rfl := List.mem_singleton.mp member
    refine ⟨by decide, by decide, by decide, ?_⟩
    simp [Statements.Admissible, Statement.Admissible,
      Expression.Admissible, Term.Admissible]
    decide
  height_le := by decide

theorem ClassDeclaration.countdown_allowed :
    LabelCounters.initial.Allow countdown.count := by
  intro kind
  cases kind <;> decide

theorem ClassDeclaration.countdown_written :
    ∀ token ∈ countdown.tokens, token.IsWritten := by
  decide +kernel

theorem compile_yield_eq_countdown :
    ClassDeclaration.countdown.Admissible ∧
      LabelCounters.initial.Allow ClassDeclaration.countdown.count ∧
      compile ClassDeclaration.countdown.derivation.yield
          LabelCounters.initial =
        (.ok (ClassDeclaration.countdown.program
            LabelCounters.initial.used),
          LabelCounters.initial.advance
            ClassDeclaration.countdown.count) :=
  ⟨ClassDeclaration.countdown_admissible,
    ClassDeclaration.countdown_allowed,
    compile_yield_eq _ _ ClassDeclaration.countdown_admissible
      ClassDeclaration.countdown_allowed⟩

end JackToVm
