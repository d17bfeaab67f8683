import JackToVm.Proofs.Compilation
import JackToVm.Proofs.EmittedCommands
import JackToVm.Proofs.Numbering

/-!
# The layout of compiled programs

A compiled program is one block after the other, one for each subroutine. A
block stays within the cells of its subroutine, as the symbol tables of the
finished program count them, and a constructor asks for as many words as there
are fields in the end.
-/

namespace JackToVm

/-! ## The cells that code names -/

section Cells

variable {scope : Scope} {tokens : List Token} {command : Command}
variable {segment : Segment} {index : Nat}

theorem Fragment.cell?_string {content : String}
    (inside : command ∈ Fragment.string content)
    (named : command.cell? = some (segment, index)) :
    segment = .constant := by
  simp only [Fragment.string, List.mem_cons, List.mem_flatMap,
    List.not_mem_nil, or_false] at inside
  rcases inside with rfl | rfl | ⟨byte, _, rfl | rfl⟩
  · simp only [Command.cell?, Option.some.injEq, Prod.mk.injEq] at named
    exact named.1.symm
  · cases named
  · simp only [Command.cell?, Option.some.injEq, Prod.mk.injEq] at named
    exact named.1.symm
  · cases named

/-- The word for the object is the only one that is no constant. -/
theorem KeywordConstant.cell?_commands {word : KeywordConstant}
    (inside : command ∈ word.commands)
    (named : command.cell? = some (segment, index)) :
    segment = .constant ∨ segment = .pointer ∧ index = 0 := by
  cases word with
  | «true» =>
      simp only [commands, List.mem_cons, List.not_mem_nil,
        or_false] at inside
      rcases inside with rfl | rfl
      · cases named
        exact Or.inl rfl
      · cases named
  | «false» | null =>
      obtain rfl := List.mem_singleton.mp inside
      cases named
      exact Or.inl rfl
  | this =>
      obtain rfl := List.mem_singleton.mp inside
      cases named
      exact Or.inr ⟨rfl, rfl⟩

theorem Fragment.has_cell_load (inside : command ∈ Fragment.load)
    (named : command.cell? = some (segment, index)) :
    scope.Has segment index := by
  simp only [Fragment.load, List.mem_cons, List.not_mem_nil,
    or_false] at inside
  rcases inside with rfl | rfl
  · cases named
    exact Or.inr rfl
  · cases named
    rfl

theorem Fragment.has_cell_store (inside : command ∈ Fragment.store)
    (named : command.cell? = some (segment, index)) :
    scope.Has segment index := by
  simp only [Fragment.store, List.mem_cons, List.not_mem_nil,
    or_false] at inside
  rcases inside with rfl | rfl | rfl | rfl
  · cases named
    rfl
  · cases named
    exact Or.inr rfl
  · cases named
    rfl
  · cases named
    rfl

/-- Code names no cell that the subroutine does not have. -/
theorem Emitted.has_cell (emitted : Emitted scope tokens command)
    (ordered : scope.Ordered)
    (named : command.cell? = some (segment, index)) :
    scope.Has segment index := by
  cases emitted with
  | integer _ =>
      cases named
      trivial
  | string _ inside =>
      obtain rfl := Fragment.cell?_string inside named
      trivial
  | «constant» inside =>
      rcases KeywordConstant.cell?_commands inside named with
        rfl | ⟨rfl, rfl⟩
      · trivial
      · exact Or.inl rfl
  | noResult =>
      cases named
      trivial
  | receiver =>
      cases named
      exact Or.inl rfl
  | read resolved =>
      cases named
      exact ordered.has_of_resolve? resolved
  | write resolved =>
      cases named
      exact ordered.has_of_resolve? resolved
  | load inside => exact Fragment.has_cell_load inside named
  | store inside => exact Fragment.has_cell_store inside named
  | dropped =>
      cases named
      rfl
  | other without =>
      rw [without] at named
      cases named

end Cells

namespace ClassDeclaration.Admissible

variable {declared : ClassDeclaration}
variable {subroutine : SubroutineDeclaration}

/-- The prologue of a method names its first argument, which every method
has. -/
theorem has_cell_prologue (admissible : declared.Admissible)
    (member : subroutine ∈ declared.subroutines) {command : Command}
    {segment : Segment} {index : Nat}
    (inside : command ∈
      subroutine.kind.prologue (declared.table.count .field))
    (named : command.cell? = some (segment, index)) :
    (subroutine.scope declared.name declared.table).Has segment index := by
  cases kind : subroutine.kind with
  | «constructor» =>
      simp only [kind, SubroutineKind.prologue, List.mem_cons,
        List.not_mem_nil, or_false] at inside
      rcases inside with rfl | rfl | rfl
      · cases named
        trivial
      · cases named
      · cases named
        exact Or.inl rfl
  | method =>
      have arguments :=
        admissible.count_subroutineTable member .argument
      have implicit : 0 < subroutine.argumentNames.length := by
        simp [SubroutineDeclaration.argumentNames, kind]
      simp only [kind, SubroutineKind.prologue, List.mem_cons,
        List.not_mem_nil, or_false] at inside
      rcases inside with rfl | rfl
      · cases named
        exact Nat.lt_of_lt_of_eq implicit arguments.symm
      · cases named
        exact Or.inl rfl
  | «function» =>
      rw [kind] at inside
      cases inside

/-- The code of a subroutine is a block that its scope owns. -/
theorem ownsBlock_code (admissible : declared.Admissible)
    (member : subroutine ∈ declared.subroutines) (used : NumbersUsed) :
    (subroutine.scope declared.name declared.table).OwnsBlock
      (qualifiedName declared.name subroutine.name)
      (subroutine.code declared.name declared.table used) where
  head_eq := rfl
  head_only := by
    intro other count within
    have isBlock :=
      subroutine.isBlock_code declared.name declared.table used
    have continues := List.all_eq_true.mp isBlock.2 _ within
    cases continues
  has_cell := by
    intro command segment index inside named
    have ordered := admissible.scope_ordered member
    rcases List.mem_cons.mp inside with rfl | behind
    · cases named
    · rcases subroutine.emitted_body declared.name declared.table used
        behind with inPrologue | emitted
      · exact admissible.has_cell_prologue member inPrologue named
      · exact emitted.has_cell ordered named
  cell_ne := (admissible.scope_ordered member).cell_ne

end ClassDeclaration.Admissible

/-! ## Programs -/

/-- The block of a constructor begins by asking for a word for every field of
the class. -/
theorem SubroutineDeclaration.exists_code_eq_of_constructor
    {subroutine : SubroutineDeclaration}
    (kind : subroutine.kind = .constructor) (className : String)
    (classTable : SymbolTable) (used : NumbersUsed) :
    ∃ behind, subroutine.code className classTable used =
      .function (qualifiedName className subroutine.name)
          ((subroutine.table className).count .local) ::
        .push .constant (classTable.count .field) ::
        .call Fragment.memoryAlloc 1 :: .pop .pointer 0 :: behind := by
  rw [code, opening, kind]
  exact ⟨_, rfl⟩

/-- A program that is compiled consists of one block for each of its
subroutines, in the same order, and each block stays within the cells that the
tables of the program count. Every constructor asks for as many words as the
table of the class has fields. -/
theorem layout_of_compile {tokens : List Token} {labels : LabelCounters}
    {program : Program}
    (compiled : (compile tokens labels).1 = .ok program) :
    ∃ blocks : List (List Command),
      program.commands = blocks.flatten ∧
      blocks.length = program.subroutines.length ∧
      (∀ (index : Nat) (name : String) (table : SymbolTable),
        program.subroutines[index]? = some (name, table) →
        ∃ block, blocks[index]? = some block ∧
          (program.scope table).OwnsBlock name block) ∧
      ∃ declared : ClassDeclaration, declared.derivation.yield = tokens ∧
        program = declared.program labels.used ∧
        ∀ (index : Nat) (subroutine : SubroutineDeclaration),
          declared.subroutines[index]? = some subroutine →
          subroutine.kind = .constructor →
          ∃ head behind, blocks[index]? =
            some (head :: .push .constant (program.classTable.count .field) ::
              .call Fragment.memoryAlloc 1 :: .pop .pointer 0 ::
              behind) := by
  obtain ⟨declared, derives, admissible, _, rfl, _⟩ :=
    exists_program_of_compile compiled
  have whole := declared.blocks_program labels.used
  refine ⟨Command.blocks (declared.program labels.used).commands, ?_,
    declared.length_blocks_program labels.used, ?_,
    declared, derives, rfl, ?_⟩
  · rw [whole]
    rfl
  · intro index name table entry
    obtain ⟨subroutine, usedBefore, found, rfl, rfl, block⟩ :=
      declared.getElem?_blocks_program labels.used entry
    have member := List.mem_of_getElem? found
    exact ⟨_, block, admissible.ownsBlock_code member usedBefore⟩
  · intro index subroutine found kind
    obtain ⟨usedBefore, block⟩ :=
      SubroutineDeclaration.getElem?_codeOfList declared.name
        declared.table declared.subroutines labels.used index found
    obtain ⟨behind, code⟩ :=
      SubroutineDeclaration.exists_code_eq_of_constructor kind
        declared.name declared.table usedBefore
    rw [whole, block, code]
    exact ⟨_, behind, rfl⟩

/-- A class with a constructor and a method, and variables of every kind. -/
def ClassDeclaration.tally : ClassDeclaration where
  name := "Tally"
  declarations := [⟨⟨.int, "sum", ["last"]⟩, .field⟩,
    ⟨⟨.int, "made", []⟩, .static⟩]
  subroutines :=
    [{  kind := .constructor
        result := some (.named "Tally")
        name := "new"
        parameters := [⟨.int, "start"⟩]
        declarations := []
        body :=
          .cons (.letVariable "sum" (.term (.variable "start")))
            (.cons
              (.letVariable "made"
                (.binary (.term (.variable "made")) .add (.integer 1)))
              (.cons (.returnValue (.term (.constant .this))) .nil)) },
      { kind := .method
        result := none
        name := "add"
        parameters := [⟨.int, "amount"⟩]
        declarations := [⟨.int, "before", []⟩]
        body :=
          .cons (.letVariable "before" (.term (.variable "sum")))
            (.cons
              (.letVariable "sum"
                (.binary (.term (.variable "before")) .add
                  (.variable "amount")))
              (.cons .returnNothing .nil)) }]

theorem ClassDeclaration.tally_admissible : tally.Admissible where
  names_nodup := by decide
  variables_le := by
    intro kind
    cases kind <;> decide
  subroutines := by
    intro subroutine member
    rcases List.mem_pair.mp member with rfl | rfl
    · refine ⟨by decide, by decide, by decide, ?_⟩
      simp [Statements.Admissible, Statement.Admissible,
        Expression.Admissible, Term.Admissible]
      decide
    · refine ⟨by decide, by decide, by decide, ?_⟩
      simp [Statements.Admissible, Statement.Admissible,
        Expression.Admissible, Term.Admissible]
      decide
  height_le := by decide

theorem ClassDeclaration.tally_allowed :
    LabelCounters.initial.Allow tally.count := by
  intro kind
  cases kind <;> decide

theorem layout_of_compile_tally :
    ∃ program : Program,
      (compile ClassDeclaration.tally.derivation.yield
          LabelCounters.initial).1 = .ok program ∧
      ∃ blocks : List (List Command),
        program.commands = blocks.flatten ∧
        blocks.length = program.subroutines.length ∧
        (∀ (index : Nat) (name : String) (table : SymbolTable),
          program.subroutines[index]? = some (name, table) →
          ∃ block, blocks[index]? = some block ∧
            (program.scope table).OwnsBlock name block) ∧
        ∃ declared : ClassDeclaration,
          declared.derivation.yield =
              ClassDeclaration.tally.derivation.yield ∧
          program = declared.program LabelCounters.initial.used ∧
          ∀ (index : Nat) (subroutine : SubroutineDeclaration),
            declared.subroutines[index]? = some subroutine →
            subroutine.kind = .constructor →
            ∃ head behind, blocks[index]? =
              some (head ::
                .push .constant (program.classTable.count .field) ::
                .call Fragment.memoryAlloc 1 :: .pop .pointer 0 ::
                behind) := by
  have whole :=
    compile_of_runPass
      (runPass_tokens ClassDeclaration.tally_admissible
        ClassDeclaration.tally_allowed)
  have compiled := congrArg Prod.fst whole
  exact ⟨_, compiled, layout_of_compile compiled⟩

end JackToVm
