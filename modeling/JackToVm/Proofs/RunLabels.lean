import JackToVm.Proofs.Compilation
import JackToVm.Proofs.Jumps
import JackToVm.Proofs.Requests

/-!
# The labels of a run

The numbers that a run hands out are consecutive, also where a source is
refused midway and keeps what it took. The labels of every program carry the
numbers of its turn, so no label is declared twice over the whole run, and a
jump finds the one place with its label in the block that it stands in.
-/

namespace JackToVm

open Command

/-! ## Labels of a class -/

/-- The subroutines of a class take their numbers one behind the other. -/
theorem takenLabels_codeOfList (className : String)
    (classTable : SymbolTable) (subroutines : List SubroutineDeclaration) :
    ∀ used : NumbersUsed,
      TakenLabels used
        (fun kind => used kind + subroutines.foldr
          (fun subroutine behind => subroutine.body.count kind + behind) 0)
        (labelsOf (SubroutineDeclaration.codeOfList className classTable
          subroutines used).flatten) := by
  induction subroutines with
  | nil => exact fun _ => .nil
  | cons subroutine others inductionHypothesis =>
      intro used
      have first := takenLabels_statements
        (subroutine.scope className classTable) subroutine.body used
      have later := inductionHypothesis (used.behind subroutine.body)
      rw [← subroutine.labelsOf_code className classTable used] at first
      have whole := first.append later
        (fun _ => Nat.le_add_right _ _) (fun _ => Nat.le_add_right _ _)
      simp only [NumbersUsed.behind, Nat.add_assoc] at whole
      simpa only [SubroutineDeclaration.codeOfList, List.flatten_cons,
        labelsOf_append, List.foldr_cons] using whole

theorem ClassDeclaration.takenLabels_program (declared : ClassDeclaration)
    (used : NumbersUsed) :
    TakenLabels used (fun kind => used kind + declared.count kind)
      (labelsOf (declared.program used).commands) :=
  takenLabels_codeOfList declared.name declared.table declared.subroutines
    used

/-! ## One turn -/

namespace Turn

variable {turn : Turn}

/-- What a turn yields is the program of the class that its source is read
as. -/
theorem exists_program_of_answer {program : Program}
    (answered : turn.answer = .ok program) :
    ∃ declared : ClassDeclaration,
      Token.scan turn.source = .ok declared.derivation.yield ∧
        program = declared.program turn.before.used ∧
        turn.behind = turn.before.advance declared.count := by
  unfold answer compileSource at answered
  unfold behind compileSource
  cases scanned : Token.scan turn.source with
  | error cause =>
      rw [scanned] at answered
      cases answered
  | ok tokens =>
      rw [scanned] at answered
      obtain ⟨declared, rfl, _, _, same, advanced⟩ :=
        exists_program_of_compile answered
      exact ⟨declared, rfl, same, advanced⟩

theorem commands_of_answer {program : Program}
    (answered : turn.answer = .ok program) :
    turn.commands = program.commands := by
  rw [commands, answered]

/-- A program declares the labels of every number that its turn is given. -/
theorem labels_subset_of_answer {program : Program}
    (answered : turn.answer = .ok program) {kind : LabelKind} {number : Nat}
    (least : turn.before.used kind ≤ number)
    (early : number < turn.behind.used kind) :
    (kind.pair number).labels ⊆ labelsOf turn.commands := by
  obtain ⟨declared, _, rfl, advanced⟩ := exists_program_of_answer answered
  rw [advanced, LabelCounters.used_advance] at early
  rw [commands_of_answer answered]
  exact (declared.takenLabels_program turn.before.used).complete kind number
    least early

/-- A turn yields the program of a class, or no commands at all. -/
theorem exists_commands_or_nil (turn : Turn) :
    (∃ declared : ClassDeclaration,
      turn.commands = (declared.program turn.before.used).commands ∧
        turn.behind = turn.before.advance declared.count) ∨
      turn.commands = [] := by
  cases answered : turn.answer with
  | ok program =>
      obtain ⟨declared, _, rfl, advanced⟩ :=
        exists_program_of_answer answered
      exact Or.inl ⟨declared, commands_of_answer answered, advanced⟩
  | error cause =>
      right
      rw [commands, answered]

theorem used_le (turn : Turn) (kind : LabelKind) :
    turn.before.used kind ≤ turn.behind.used kind :=
  turn.serves.used_le kind

theorem numbersOf_eq_range (turn : Turn) (kind : LabelKind) :
    turn.numbersOf kind =
      List.range' (turn.before.used kind)
        (turn.behind.used kind - turn.before.used kind) :=
  turn.serves.handOut_eq_range kind

theorem mem_numbersOf_iff {kind : LabelKind} {number : Nat} :
    number ∈ turn.numbersOf kind ↔
      turn.before.used kind ≤ number ∧ number < turn.behind.used kind := by
  have grown := turn.used_le kind
  rw [numbersOf_eq_range, List.mem_range'_1,
    Nat.add_sub_of_le grown]

/-- The labels of a turn are distinct and carry numbers of the turn. -/
theorem freshLabels (turn : Turn) :
    FreshLabels turn.before.used turn.behind.used
      (labelsOf turn.commands) := by
  rcases turn.exists_commands_or_nil with
    ⟨declared, commands, advanced⟩ | nothing
  · rw [commands, advanced, LabelCounters.used_advance]
    exact (declared.takenLabels_program turn.before.used).toFreshLabels
  · rw [nothing]
    exact .nil

theorem targetsOf_block_subset {block : List Command}
    (member : block ∈ Command.blocks turn.commands) :
    targetsOf block ⊆ labelsOf block := by
  rcases turn.exists_commands_or_nil with ⟨declared, commands, _⟩ | nothing
  · rw [commands] at member
    exact declared.targetsOf_block_subset member
  · rw [nothing] at member
    cases member

/-- The loops and branches of a class that is compiled are what its turn asks
numbers for. -/
theorem count_asked_of_answer {program : Program}
    (answered : turn.answer = .ok program) :
    ∃ declared : ClassDeclaration,
      Token.scan turn.source = .ok declared.derivation.yield ∧
        ∀ kind, turn.asked.count kind = declared.count kind := by
  obtain ⟨declared, scanned, _, advanced⟩ :=
    exists_program_of_answer answered
  refine ⟨declared, scanned, ?_⟩
  intro kind
  have served : turn.cause?.bind CompileError.refused? ≠ some kind := by
    rw [cause?, answered]
    exact fun impossible => nomatch impossible
  have asked := turn.serves.used_eq served
  rw [advanced, LabelCounters.used_advance] at asked
  exact (Nat.add_left_cancel asked).symm

theorem takesNext (turn : Turn) : turn.TakesNext where
  used_le := turn.used_le
  numbersOf_eq := turn.numbersOf_eq_range
  used_eq := by
    intro kind answered
    exact turn.serves.used_eq (mt refused?_eq_some_iff.mp answered)
  limit_asked := by
    intro kind answered
    have serves := turn.serves
    rw [refused?_eq_some_iff.mpr answered] at serves
    exact serves.exhausted_of_refused
  count_asked := by
    intro program answered
    exact count_asked_of_answer answered
  number_declared := by
    intro program answered kind number member
    obtain ⟨least, early⟩ := mem_numbersOf_iff.mp member
    have declares := labels_subset_of_answer answered least early
    simp only [LabelPair.labels, List.cons_subset, List.nil_subset,
      and_true, mem_labelsOf_iff] at declares
    exact declares
  label_numbered := by
    intro place declared
    have fresh := turn.freshLabels.numbered place
      (mem_labelsOf_iff.mpr declared)
    obtain ⟨kind, number, least, early, ofNumber⟩ := fresh
    refine ⟨kind, number, mem_numbersOf_iff.mpr ⟨least, early⟩, ?_⟩
    simpa [LabelPair.labels] using ofNumber

theorem getsNone {kind : LabelKind}
    (exhausted : turn.before.Exhausted kind) : turn.GetsNone kind where
  numbersOf_eq := by
    have same := turn.serves.get_eq_of_exhausted exhausted
    have none : turn.behind.used kind - turn.before.used kind = 0 := by
      rw [LabelCounters.used, LabelCounters.used, same, Nat.sub_self]
    rw [numbersOf_eq_range, none, List.range'_zero]
  get_eq := turn.serves.get_eq_of_exhausted exhausted
  refused_of_asked := answer_of_asked exhausted
  refused_of_needed := by
    intro others needed
    obtain ⟨refused, answered⟩ := exists_refused_of_needed exhausted needed
    exact ⟨refused, answered, (turn.takesNext.limit_asked _ answered).2⟩

end Turn

/-! ## A whole run -/

namespace Turn

variable {sources : List String}

/-- No turn of a run finds fewer numbers used up than the run began with. -/
theorem used_le_of_mem {labels : LabelCounters} {turn : Turn}
    (member : turn ∈ ofSources sources labels) (kind : LabelKind) :
    labels.used kind ≤ turn.before.used kind := by
  induction sources generalizing labels with
  | nil => cases member
  | cons source sources inductionHypothesis =>
      rcases List.mem_cons.mp member with rfl | later
      · exact Nat.le_refl _
      · have first : labels.used kind ≤
            (behind ⟨source, labels⟩).used kind :=
          used_le ⟨source, labels⟩ kind
        exact Nat.le_trans first (inductionHypothesis later)

theorem exhausted_ofSources (sources : List String) (labels : LabelCounters)
    (kind : LabelKind) :
    (ofSources sources labels).Pairwise fun earlier later =>
      earlier.behind.Exhausted kind → later.before.Exhausted kind := by
  induction sources generalizing labels with
  | nil => exact List.Pairwise.nil
  | cons source sources inductionHypothesis =>
      apply List.Pairwise.cons
      · intro later member exhausted
        exact exhausted.of_used_le (used_le_of_mem member kind)
      · exact inductionHypothesis _

/-- The numbers of one kind that a run hands out are consecutive. -/
theorem exists_numbersOf_ofSources (sources : List String)
    (labels : LabelCounters) (kind : LabelKind) :
    ∃ count, (ofSources sources labels).flatMap (·.numbersOf kind) =
      List.range' (labels.used kind) count := by
  induction sources generalizing labels with
  | nil => exact ⟨0, rfl⟩
  | cons source sources inductionHypothesis =>
      have first := numbersOf_eq_range ⟨source, labels⟩ kind
      have grown : labels.used kind ≤ (behind ⟨source, labels⟩).used kind :=
        used_le ⟨source, labels⟩ kind
      obtain ⟨count, later⟩ :=
        inductionHypothesis (behind ⟨source, labels⟩)
      refine ⟨(behind ⟨source, labels⟩).used kind - labels.used kind +
        count, ?_⟩
      rw [← List.range'_append_1, Nat.add_sub_of_le grown, ← later, ← first]
      rfl

/-- The labels of a run are distinct, and their numbers are taken behind those
that the run began with. -/
theorem exists_freshLabels_ofSources (sources : List String)
    (labels : LabelCounters) :
    ∃ behind : NumbersUsed, (∀ kind, labels.used kind ≤ behind kind) ∧
      FreshLabels labels.used behind
        (labelsOf ((ofSources sources labels).flatMap commands)) := by
  induction sources generalizing labels with
  | nil => exact ⟨labels.used, fun _ => Nat.le_refl _, .nil⟩
  | cons source sources inductionHypothesis =>
      have first := freshLabels ⟨source, labels⟩
      have grown := used_le ⟨source, labels⟩
      obtain ⟨last, above, later⟩ :=
        inductionHypothesis (behind ⟨source, labels⟩)
      refine ⟨last, fun kind => Nat.le_trans (grown kind) (above kind), ?_⟩
      rw [ofSources, List.flatMap_cons, labelsOf_append]
      exact first.append later grown above

theorem count_label_le_one (sources : List String) (labels : LabelCounters)
    (place : String) :
    ((ofSources sources labels).flatMap commands).count (.label place) ≤
      1 := by
  obtain ⟨_, _, fresh⟩ := exists_freshLabels_ofSources sources labels
  rw [count_label]
  exact List.nodup_iff_count_le_one.mp fresh.nodup place

theorem commands_sublist {run : List Turn} {turn : Turn}
    (member : turn ∈ run) :
    turn.commands.Sublist (run.flatMap commands) := by
  rw [List.flatMap_def]
  exact List.sublist_flatten_of_mem (List.mem_map_of_mem member)

end Turn

/-- Whatever sources a run compiles one after the other, its labels are in
order, and every source that is refused on the way keeps the numbers it
took. -/
theorem labelDiscipline_ofSources (sources : List String)
    (labels : LabelCounters) :
    LabelDiscipline (Turn.ofSources sources labels) where
  label_unique := Turn.count_label_le_one sources labels
  jump_declared := by
    intro turn member block inTurn command inBlock place target
    have declared : 0 < block.count (.label place) := by
      rw [count_label, List.count_pos_iff]
      exact Turn.targetsOf_block_subset inTurn (mem_targetsOf inBlock target)
    have ofBlock : block.count (.label place) ≤
        turn.commands.count (.label place) :=
      (sublist_of_mem_blocks inTurn).count_le _
    have ofTurn : turn.commands.count (.label place) ≤
        ((Turn.ofSources sources labels).flatMap Turn.commands).count
          (.label place) :=
      (Turn.commands_sublist member).count_le _
    have once := Turn.count_label_le_one sources labels place
    omega
  numbers_increase := by
    intro kind
    obtain ⟨count, consecutive⟩ :=
      Turn.exists_numbersOf_ofSources sources labels kind
    rw [consecutive]
    exact List.pairwise_lt_range'
  takes_next := fun turn _ => turn.takesNext
  exhausted_stays := Turn.exhausted_ofSources sources labels
  exhausted_gets_none := fun _ _ _ exhausted => Turn.getsNone exhausted

end JackToVm
