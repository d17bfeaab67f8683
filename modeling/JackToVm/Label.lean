import JackToVm.Counter

/-!
# Labels

The labels of loops and branches. Every `while` and every `if` of a run takes
a number of its own, counted separately for the two; the two labels of a
statement carry the number it took.
-/

namespace JackToVm

/-- The statements that need labels. -/
inductive LabelKind where
  | while
  | if
deriving DecidableEq, Repr

namespace LabelKind

/-- The name of the label at which the statement goes on first: the head of a
loop, or the branch taken when the condition fails. -/
def startName : LabelKind → String
  | .while => "WHILE"
  | .if => "IF_FALSE"

def endName : LabelKind → String
  | .while => "WHILE_END"
  | .if => "IF_END"

/-- The statement, as messages name it. -/
def word : LabelKind → String
  | .while => "while"
  | .if => "if"

end LabelKind

/-- The two labels of one statement. -/
structure LabelPair where
  /-- The head of a loop, or the branch taken when the condition fails. -/
  start : String
  finish : String
deriving DecidableEq, Repr

/-- The labels of the statement that took `number`. -/
def LabelKind.pair (kind : LabelKind) (number : Nat) : LabelPair where
  start := kind.startName ++ toString number
  finish := kind.endName ++ toString number

/-- The numbers that a run has handed out so far. -/
structure LabelCounters where
  whiles : Counter
  ifs : Counter
deriving DecidableEq, Repr, Inhabited

namespace LabelCounters

def initial : LabelCounters := ⟨Counter.zero, Counter.zero⟩

def get (counters : LabelCounters) : LabelKind → Counter
  | .while => counters.whiles
  | .if => counters.ifs

/-- The counters with one of them replaced. -/
def set (counters : LabelCounters) : LabelKind → Counter → LabelCounters
  | .while, counter => { counters with whiles := counter }
  | .if, counter => { counters with ifs := counter }

/-- Takes the labels of the next statement of a kind; an exhausted counter has
none left. -/
def take? (counters : LabelCounters) (kind : LabelKind) :
    Option (LabelPair × LabelCounters) :=
  (counters.get kind).take?.map fun (number, counter) =>
    (kind.pair number, counters.set kind counter)

end LabelCounters

/-! ## Many numbers at once -/

/-- How many numbers of each kind are used up. -/
abbrev NumbersUsed := LabelKind → Nat

namespace NumbersUsed

/-- One number of a kind and none of the other. -/
def one (kind : LabelKind) : NumbersUsed :=
  fun asked => if kind = asked then 1 else 0

/-- The numbers used up behind one more statement of a kind. -/
def next (used : NumbersUsed) (kind : LabelKind) : NumbersUsed :=
  fun asked => used asked + one kind asked

end NumbersUsed

namespace LabelCounters

/-- The numbers that label counters have handed out. -/
def used (counters : LabelCounters) : NumbersUsed :=
  fun kind => (counters.get kind).value

/-- The counters behind some more numbers of each kind. -/
def advance (counters : LabelCounters) (numbers : NumbersUsed) :
    LabelCounters where
  whiles := ⟨counters.whiles.value + numbers .while⟩
  ifs := ⟨counters.ifs.value + numbers .if⟩

/-- Whether some more numbers of each kind are left. -/
def Allow (counters : LabelCounters) (numbers : NumbersUsed) : Prop :=
  ∀ kind, numbers kind ≤ (counters.get kind).left

@[simp]
theorem used_advance (counters : LabelCounters) (numbers : NumbersUsed) :
    (counters.advance numbers).used =
      fun kind => counters.used kind + numbers kind := by
  funext kind
  cases kind <;> rfl

theorem advance_advance (counters : LabelCounters)
    (first second : NumbersUsed) :
    (counters.advance first).advance second =
      counters.advance fun kind => first kind + second kind := by
  simp [advance, Nat.add_assoc]

/-- Numbers are left for two parts exactly if they are left for the first one,
and behind it for the second one. -/
theorem allow_add_iff (counters : LabelCounters)
    (first second : NumbersUsed) :
    counters.Allow (fun kind => first kind + second kind) ↔
      counters.Allow first ∧ (counters.advance first).Allow second := by
  have leftBehind : ∀ kind,
      ((counters.advance first).get kind).left =
        (counters.get kind).left - first kind := by
    intro kind
    cases kind <;> simp only [advance, get, Counter.left] <;> omega
  simp only [Allow, leftBehind, ← forall_and]
  apply forall_congr'
  intro kind
  omega

theorem take?_eq_some_iff {counters behind : LabelCounters}
    {kind : LabelKind} {labels : LabelPair} :
    counters.take? kind = some (labels, behind) ↔
      labels = kind.pair (counters.used kind) ∧
        behind = counters.advance (.one kind) ∧
        counters.Allow (.one kind) := by
  have advanced :
      counters.set kind ⟨(counters.get kind).value + 1⟩ =
        counters.advance (.one kind) := by
    cases kind <;> rfl
  have allowed :
      counters.Allow (.one kind) ↔
        (counters.get kind).value < Counter.limit := by
    constructor
    · intro allow
      have bound := allow kind
      simp only [NumbersUsed.one, if_true, Counter.left] at bound
      omega
    · intro below asked
      by_cases same : kind = asked
      · subst asked
        simp only [NumbersUsed.one, if_true, Counter.left]
        omega
      · simp [NumbersUsed.one, same]
  rw [allowed, ← advanced]
  by_cases below : (counters.get kind).value < Counter.limit
  · simp [take?, Counter.take?, below, used, eq_comm]
  · simp [take?, Counter.take?, below]

end LabelCounters

end JackToVm
