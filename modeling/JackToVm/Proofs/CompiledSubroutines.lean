import JackToVm.Proofs.Compilation
import JackToVm.Proofs.StatementExecution

/-!
# Compiled subroutines

The block of a subroutine, begun with its first command on an empty stack, does
what the source of the subroutine says: it comes to a `return`, or to its end,
exactly if the body does, with the same result and the same store. So a program
that is compiled does what its source says.
-/

namespace JackToVm

open JackToVm.Configuration (Reaches Continues Finishes)

/-! ## Before the body -/

namespace Executes

variable {callees : Callees} {before : Store}

theorem function (name : String) (count : Nat) :
    Executes callees [.function name count] before []
      (before.clearLocals count) [] := by
  apply one
  intro machine rest sameStore sameStack
  subst sameStore
  exact ⟨_, rfl, rfl, sameStack⟩

theorem popThis (object : Word) :
    Executes callees [.pop .pointer 0] before [object]
      { before with this := object } [] := by
  apply one
  intro machine rest sameStore sameStack
  subst sameStore
  refine ⟨(machine.withStack rest).write object .pointer 0, ?_, rfl, rfl⟩
  simp [Command.effect?, sameStack]

theorem pushFirstArgument :
    Executes callees [.push .argument 0] before [] before
      [before.arguments 0] := by
  apply push
  intro machine sameStore
  subst sameStore
  rfl

/-- The commands before the body make the store in which the body begins. -/
theorem opening (kind : SubroutineKind) (name : String)
    (locals fields : Nat) :
    Executes callees (.function name locals :: kind.prologue fields) before
      [] (kind.begin callees locals fields before) [] := by
  have clears :
      Executes callees [.function name locals] before []
        (before.clearLocals locals) [] := function name locals
  cases kind with
  | «function» => exact clears
  | method => exact clears.append (pushFirstArgument.append (popThis _))
  | «constructor» =>
      exact clears.append
        ((pushConstant fields).append ((call rfl).append (popThis _)))

end Executes

/-! ## Blocks and their ends -/

section Ends

variable {callees : Callees} {block : List Command}
variable {first last : Configuration}

theorem Configuration.Ends.eq {ending other : Ending}
    (ends : last.Ends block ending) (endsOther : last.Ends block other) :
    ending = other := by
  have outside : ∀ {result}, last.Ends block .completed →
      ¬ last.Ends block (.returned result) := by
    intro result completed returned
    have inside := returned.1
    rw [completed.1, List.getElem?_eq_none (Nat.le_refl _)] at inside
    cases inside
  cases ending with
  | completed =>
      cases other with
      | completed => rfl
      | returned result => exact absurd endsOther (outside ends)
  | returned result =>
      cases other with
      | completed => exact absurd ends (outside endsOther)
      | returned otherResult =>
          have same := endsOther.2
          rw [ends.2] at same
          cases same
          rfl

/-- Execution that finishes behind the last command ends the block. -/
theorem Configuration.Finishes.exists_ends {ending : Ending}
    {after : Store}
    (finishes :
      Finishes callees block first block.length ending after) :
    ∃ last : Configuration, Reaches callees block first last ∧
      last.Ends block ending ∧ last.machine.toStore = after := by
  cases ending with
  | completed =>
      obtain ⟨machine, reaches, rests⟩ := finishes
      exact ⟨_, reaches, ⟨rfl, rests.2⟩, rests.1⟩
  | returned result => exact finishes

end Ends

/-! ## Subroutines -/

/-- The block of a subroutine runs as the subroutine does. -/
theorem SubroutineDeclaration.blockRuns_code_iff
    {subroutine : SubroutineDeclaration} {className : String}
    {classTable : SymbolTable} {declared : List String}
    (known : (subroutine.scope className classTable).Declares declared)
    (admissible : subroutine.body.Admissible declared)
    (used : NumbersUsed) {callees : Callees} {store after : Store}
    {that : Word} {temps : Nat → Word} {ending : Ending} :
    Command.BlockRuns callees (subroutine.code className classTable used)
        (Machine.start store that temps) ending after ↔
      subroutine.Runs callees (subroutine.scope className classTable) store
        ending after := by
  have distinct :=
    subroutine.nodup_labelsOf_code className classTable used
  have located := Located.whole (subroutine.code className classTable used)
  have executesOpening :
      Executes callees (subroutine.opening className classTable) store []
        (subroutine.kind.begin callees
          ((subroutine.table className).count .local)
          (classTable.count .field) store) [] :=
    Executes.opening _ _ _ _
  obtain ⟨begun, reachesBody, restsBegun⟩ :=
    reaches_executes executesOpening located.left
      (rfl : (Machine.start store that temps).toStore = store) rfl
  have finishes : ∀ {ending after},
      subroutine.Runs callees (subroutine.scope className classTable)
        store ending after →
      ∃ last : Configuration,
        Reaches callees (subroutine.code className classTable used)
          ⟨0, Machine.start store that temps⟩ last ∧
        last.Ends (subroutine.code className classTable used) ending ∧
        last.machine.toStore = after := by
    intro ending after runs
    have finishesBody := Statements.Runs.finishes known distinct runs
      admissible located.right restsBegun
    have finishesBlock := finishesBody.of_reaches reachesBody
    rw [Nat.zero_add, ← List.length_append] at finishesBlock
    exact finishesBlock.exists_ends
  constructor
  -- An execution that ends does not go on forever, so the body ends as well.
  · intro blockRuns
    obtain ⟨last, reaches, ends, same⟩ := blockRuns
    obtain ⟨steps, stops⟩ :=
      Configuration.exists_not_continues reaches ends.next?_eq_none
    obtain ⟨otherEnding, otherAfter, runs⟩ | continues :=
      endsOrContinues_statements known distinct subroutine.body admissible
        located.right steps restsBegun
    · obtain ⟨other, reachesOther, endsOther, sameOther⟩ := finishes runs
      obtain rfl := reaches.eq_of_ends reachesOther ends.next?_eq_none
        endsOther.next?_eq_none
      obtain rfl := ends.eq endsOther
      obtain rfl := same.symm.trans sameOther
      exact runs
    · exact absurd (continues.of_reaches reachesBody) stops
  · intro runs
    exact finishes runs

/-! ## Programs -/

/-- A program has one block for every subroutine of a class, which begins with
the head of the subroutine and runs as the subroutine does. -/
structure Program.Implements (program : Program)
    (declared : ClassDeclaration) : Prop where
  length_blocks : (Command.blocks program.commands).length =
    declared.subroutines.length
  subroutines : ∀ (index : Nat) (subroutine : SubroutineDeclaration),
    declared.subroutines[index]? = some subroutine →
    ∃ (table : SymbolTable) (block : List Command),
      program.subroutines[index]? =
        some (qualifiedName program.className subroutine.name, table) ∧
      (Command.blocks program.commands)[index]? = some block ∧
      block.head? =
        some (.function
          (qualifiedName program.className subroutine.name)
          (table.count .local)) ∧
      ∀ (callees : Callees) (store after : Store) (that : Word)
        (temps : Nat → Word) (ending : Ending),
        Command.BlockRuns callees block (Machine.start store that temps)
            ending after ↔
          subroutine.Runs callees
            ⟨program.className, program.classTable, table⟩ store ending
            after

/-- The program of a tree does what the tree says, whatever numbers its labels
begin with. -/
theorem ClassDeclaration.program_implements {declared : ClassDeclaration}
    (admissible : declared.Admissible) (used : NumbersUsed) :
    (declared.program used).Implements declared where
  length_blocks := by
    rw [declared.blocks_program,
      SubroutineDeclaration.length_codeOfList]
  subroutines := by
    intro index subroutine found
    have rules :=
      admissible.subroutines subroutine (List.mem_of_getElem? found)
    have takesClass :=
      declared.takesAll_entries_iff.mpr
        ⟨admissible.names_nodup, admissible.variables_le⟩
    have takes :=
      (subroutine.takesAll_entries_iff declared.name).mpr
        ⟨rules.names_nodup, rules.arguments_le, rules.locals_le⟩
    have known :
        (subroutine.scope declared.name declared.table).Declares
          (subroutine.argumentNames ++ subroutine.localNames ++
            declared.variableNames) := by
      rw [← declared.names_table takesClass]
      exact subroutine.scope_declares declared.name takes
    obtain ⟨usedBefore, code⟩ :=
      SubroutineDeclaration.getElem?_codeOfList declared.name
        declared.table declared.subroutines used index found
    refine ⟨subroutine.table declared.name,
      subroutine.code declared.name declared.table usedBefore, ?_, ?_,
      rfl, ?_⟩
    · rw [program, List.getElem?_map, found]
      rfl
    · rw [declared.blocks_program]
      exact code
    · intro callees store after that temps ending
      exact subroutine.blockRuns_code_iff known rules.body usedBefore

/-- A program that is compiled does what its source says. -/
theorem exists_implements_of_compile {tokens : List Token}
    {labels : LabelCounters} {program : Program}
    (compiled : (compile tokens labels).1 = .ok program) :
    ∃ declared : ClassDeclaration,
      declared.derivation.yield = tokens ∧ declared.Admissible ∧
        program.Implements declared := by
  cases run : runPass tokens labels with
  | error cause final =>
      rw [compile, run] at compiled
      cases compiled
  | ok head final =>
      obtain ⟨declared, admissible, rfl, allowed⟩ :=
        recognizes_runPass run
      rw [compile_of_runPass (runPass_tokens admissible allowed)]
        at compiled
      obtain rfl := Except.ok.inj compiled
      exact ⟨declared, rfl, admissible,
        ClassDeclaration.program_implements admissible labels.used⟩

theorem exists_implements_of_compile_countdown :
    ∃ program : Program,
      (compile ClassDeclaration.countdown.derivation.yield
          LabelCounters.initial).1 = .ok program ∧
        ∃ declared : ClassDeclaration,
          declared.derivation.yield =
              ClassDeclaration.countdown.derivation.yield ∧
            declared.Admissible ∧ program.Implements declared := by
  have compiled :=
    compile_of_runPass
      (runPass_tokens ClassDeclaration.countdown_admissible
        ClassDeclaration.countdown_allowed)
  have succeeds := congrArg Prod.fst compiled
  exact ⟨_, succeeds, exists_implements_of_compile succeeds⟩

end JackToVm
