import JackToVm.Compilation.Class
import JackToVm.Grammar.Class
import JackToVm.Vm.ControlFlow

/-!
# Runs over several sources

The sources of a run are compiled one after the other, and each one takes its
label numbers behind those that were handed out before it. A turn is the
compilation of one source of a run. The numbers that a turn is given are found
from what the pass has read: it asks for one whenever it reads the keyword of a
loop or a branch.
-/

namespace JackToVm

/-! ## Requests for numbers -/

namespace LabelKind

/-- The keyword of a statement of a kind. -/
def keyword : LabelKind → Keyword
  | .while => .while
  | .if => .if

def ofToken? : Token → Option LabelKind
  | .keyword .while => some .while
  | .keyword .if => some .if
  | _ => none

@[simp]
theorem ofToken?_keyword (kind : LabelKind) :
    ofToken? (.keyword kind.keyword) = some kind := by
  cases kind <;> rfl

end LabelKind

/-- The numbers that label counters hand out on requests of some kinds, made
one after the other. There are no requests behind one that is refused. -/
def LabelCounters.handOut (labels : LabelCounters) :
    List LabelKind → List (LabelKind × Nat)
  | [] => []
  | kind :: kinds =>
      match labels.take? kind with
      | some (_, behind) => (kind, labels.used kind) :: behind.handOut kinds
      | none => []

/-- Whether label counters have no number of a kind left. -/
def LabelCounters.Exhausted (labels : LabelCounters) (kind : LabelKind) :
    Prop :=
  labels.take? kind = none

/-! ## What a pass has read -/

namespace PassState

/-- The tokens that are taken already. -/
def read (state : PassState) : List Token :=
  state.tokens.toList.take state.cursor

/-- The loops and branches whose keyword is taken already. -/
def asked (state : PassState) : List LabelKind :=
  state.read.filterMap LabelKind.ofToken?

end PassState

/-! ## Turns -/

/-- The compilation of one source where some numbers are handed out already. -/
structure Turn where
  source : String
  before : LabelCounters

namespace Turn

def answer (turn : Turn) : Except CompileError Program :=
  (compileSource turn.source turn.before).1

/-- The counters for the next turn, also when the source is refused. -/
def behind (turn : Turn) : LabelCounters :=
  (compileSource turn.source turn.before).2

/-- The commands that a turn yields: none if the source is refused. -/
def commands (turn : Turn) : List Command :=
  match turn.answer with
  | .ok program => program.commands
  | .error _ => []

/-- The loops and branches that the pass asks a number for, in order. A source
that is refused asks up to the place where it is refused. -/
def asked (turn : Turn) : List LabelKind :=
  match Token.scan turn.source with
  | .ok tokens => (Pass.finalState (runPass tokens turn.before)).asked
  | .error _ => []

/-- The numbers that the turn is given, each with its kind. -/
def numbers (turn : Turn) : List (LabelKind × Nat) :=
  turn.before.handOut turn.asked

/-- The numbers of one kind that the turn is given. -/
def numbersOf (turn : Turn) (kind : LabelKind) : List Nat :=
  (turn.numbers.filter (·.1 = kind)).map Prod.snd

/-- The turns of a run over some sources. -/
def ofSources : List String → LabelCounters → List Turn
  | [], _ => []
  | source :: sources, labels =>
      ⟨source, labels⟩ :: ofSources sources (compileSource source labels).2

/-- A turn is given the next numbers of each kind, one for each request that
is not refused. If it yields a program, the requests are the loops and branches
of the class, and the labels of the program are those of the numbers. -/
structure TakesNext (turn : Turn) : Prop where
  used_le : ∀ kind, turn.before.used kind ≤ turn.behind.used kind
  numbersOf_eq : ∀ kind,
    turn.numbersOf kind =
      List.range' (turn.before.used kind)
        (turn.behind.used kind - turn.before.used kind)
  used_eq : ∀ kind, turn.answer ≠ .error (.limit (.labels kind)) →
    turn.behind.used kind = turn.before.used kind + turn.asked.count kind
  limit_asked : ∀ kind, turn.answer = .error (.limit (.labels kind)) →
    kind ∈ turn.asked ∧ turn.behind.Exhausted kind
  count_asked : ∀ program, turn.answer = .ok program →
    ∃ declared : ClassDeclaration,
      Token.scan turn.source = .ok declared.derivation.yield ∧
        ∀ kind, turn.asked.count kind = declared.count kind
  number_declared : ∀ program, turn.answer = .ok program →
    ∀ kind, ∀ number ∈ turn.numbersOf kind,
      .label (kind.pair number).start ∈ turn.commands ∧
        .label (kind.pair number).finish ∈ turn.commands
  label_numbered : ∀ place, .label place ∈ turn.commands →
    ∃ kind, ∃ number ∈ turn.numbersOf kind,
      place = (kind.pair number).start ∨ place = (kind.pair number).finish

/-- A turn is given no number of a kind, and the counter stays as it is. The
turn is refused if it asks for such a number. It is refused for want of a
number, too, if its source asks for one with any other counters, whatever is
wrong with the source behind that place. -/
structure GetsNone (turn : Turn) (kind : LabelKind) : Prop where
  numbersOf_eq : turn.numbersOf kind = []
  get_eq : turn.behind.get kind = turn.before.get kind
  refused_of_asked : kind ∈ turn.asked →
    turn.answer = .error (.limit (.labels kind))
  refused_of_needed : ∀ others : LabelCounters,
    kind ∈ asked ⟨turn.source, others⟩ →
    ∃ refused, turn.answer = .error (.limit (.labels refused)) ∧
      turn.behind.Exhausted refused

end Turn

/-- The labels of a run are in order: over all its programs no label is
declared twice, a jump finds its label within its own block, the numbers of
each kind only grow, and an exhausted counter gives out nothing more. -/
structure LabelDiscipline (run : List Turn) : Prop where
  label_unique : ∀ place,
    (run.flatMap Turn.commands).count (.label place) ≤ 1
  jump_declared : ∀ turn ∈ run, ∀ block ∈ Command.blocks turn.commands,
    ∀ command ∈ block, ∀ place, command.target? = some place →
      block.count (.label place) = 1 ∧
        (run.flatMap Turn.commands).count (.label place) = 1
  numbers_increase : ∀ kind,
    (run.flatMap (·.numbersOf kind)).Pairwise (· < ·)
  takes_next : ∀ turn ∈ run, turn.TakesNext
  exhausted_stays : ∀ kind, run.Pairwise fun earlier later =>
    earlier.behind.Exhausted kind → later.before.Exhausted kind
  /-- The counter of the other kind goes on meanwhile, as `takes_next` says
  of every turn. -/
  exhausted_gets_none : ∀ turn ∈ run, ∀ kind,
    turn.before.Exhausted kind → turn.GetsNone kind

end JackToVm
