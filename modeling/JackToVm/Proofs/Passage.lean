import JackToVm.Compilation.Pass
import JackToVm.Derivation.Tree

/-!
# Passages

A pass that succeeds only adds: it takes tokens, writes commands behind those
written before, takes label numbers, finishes subroutines and goes on with the
walk through the derivation tree. A passage lists what is added. Passages of
consecutive parts are appended, and the passage of a tree is found on the tree
alone, so that a pass can be compared with the tree that it reads.
-/

namespace JackToVm

/-- The token at a leaf. -/
def Step.token? : Step → Option Token
  | .leaf token => some token
  | .enter _ | .leave _ => none

mutual

theorem DerivationTree.tokens_walk :
    ∀ tree : DerivationTree,
      tree.walk.filterMap Step.token? = tree.yield
  | .leaf token => rfl
  | .branch node children => by
      have inner := DerivationTree.tokens_walkOfList children
      simp [walk, yield, inner, List.filterMap_cons, Step.token?]

theorem DerivationTree.tokens_walkOfList :
    ∀ trees : List DerivationTree,
      (walkOfList trees).filterMap Step.token? = yieldOfList trees
  | [] => rfl
  | tree :: trees => by
      have first := DerivationTree.tokens_walk tree
      have others := DerivationTree.tokens_walkOfList trees
      simp [walkOfList, yieldOfList, first, others]

end

/-- What a part of a pass reads and writes. -/
@[ext]
structure Passage where
  /-- The walk through the part of the derivation tree that is read. -/
  walk : List Step
  code : List Command
  numbers : NumbersUsed
  subroutines : List (String × SymbolTable)

namespace Passage

def tokens (passage : Passage) : List Token :=
  passage.walk.filterMap Step.token?

/-! ## Small passages -/

/-- Nothing is read and nothing is written. -/
def empty : Passage where
  walk := []
  code := []
  numbers := fun _ => 0
  subroutines := []

/-- One token is read. -/
def leaf (token : Token) : Passage :=
  { empty with walk := [.leaf token] }

abbrev keyword (reserved : Keyword) : Passage :=
  leaf (.keyword reserved)

abbrev symbol (sign : Symbol) : Passage :=
  leaf (.symbol sign)

abbrev name (name : String) : Passage :=
  leaf (.identifier name)

/-- Commands are written. -/
def emitted (commands : List Command) : Passage :=
  { empty with code := commands }

/-- The labels of a statement are taken. -/
def numbered (kind : LabelKind) : Passage :=
  { empty with numbers := .one kind }

def finished (name : String) (table : SymbolTable) : Passage :=
  { empty with subroutines := [(name, table)] }

/-- Trees are read, and code is written that belongs to them. -/
def ofTrees (trees : List DerivationTree) (commands : List Command) :
    Passage :=
  { empty with walk := DerivationTree.walkOfList trees, code := commands }

/-- A passage between entering and leaving a node. -/
def inside (node : Node) (passage : Passage) : Passage :=
  { passage with walk := .enter node :: passage.walk ++ [.leave node] }

instance : Append Passage where
  append first second :=
    { walk := first.walk ++ second.walk
      code := first.code ++ second.code
      numbers := fun kind => first.numbers kind + second.numbers kind
      subroutines := first.subroutines ++ second.subroutines }

def concat : List Passage → Passage
  | [] => empty
  | [only] => only
  | first :: others => first ++ concat others

section Parts

variable (first second third passage : Passage)

@[simp]
theorem walk_append :
    (first ++ second).walk = first.walk ++ second.walk := rfl

@[simp]
theorem code_append :
    (first ++ second).code = first.code ++ second.code := rfl

@[simp]
theorem numbers_append :
    (first ++ second).numbers =
      fun kind => first.numbers kind + second.numbers kind := rfl

@[simp]
theorem subroutines_append :
    (first ++ second).subroutines =
      first.subroutines ++ second.subroutines := rfl

@[simp]
theorem walk_inside (node : Node) :
    (passage.inside node).walk =
      .enter node :: passage.walk ++ [.leave node] := rfl

@[simp]
theorem code_inside (node : Node) :
    (passage.inside node).code = passage.code := rfl

@[simp]
theorem numbers_inside (node : Node) :
    (passage.inside node).numbers = passage.numbers := rfl

@[simp]
theorem subroutines_inside (node : Node) :
    (passage.inside node).subroutines = passage.subroutines := rfl

@[simp]
theorem tokens_append :
    (first ++ second).tokens = first.tokens ++ second.tokens := by
  simp [tokens]

@[simp]
theorem tokens_empty : empty.tokens = [] := rfl

@[simp]
theorem tokens_leaf (token : Token) : (leaf token).tokens = [token] := rfl

@[simp]
theorem tokens_emitted (commands : List Command) :
    (emitted commands).tokens = [] := rfl

@[simp]
theorem tokens_numbered (kind : LabelKind) :
    (numbered kind).tokens = [] := rfl

@[simp]
theorem numbers_empty : empty.numbers = fun _ => 0 := rfl

@[simp]
theorem numbers_leaf (token : Token) :
    (leaf token).numbers = fun _ => 0 := rfl

@[simp]
theorem numbers_emitted (commands : List Command) :
    (emitted commands).numbers = fun _ => 0 := rfl

@[simp]
theorem numbers_ofTrees (trees : List DerivationTree)
    (commands : List Command) :
    (ofTrees trees commands).numbers = fun _ => 0 := rfl

@[simp]
theorem numbers_numbered (kind : LabelKind) :
    (numbered kind).numbers = .one kind := rfl

@[simp]
theorem tokens_inside (node : Node) :
    (passage.inside node).tokens = passage.tokens := by
  simp [tokens, inside, List.filterMap_cons, Step.token?]

@[simp]
theorem append_empty : passage ++ empty = passage := by
  ext <;> simp [empty]

theorem append_assoc :
    first ++ second ++ third = first ++ (second ++ third) := by
  ext <;> simp [Nat.add_assoc]

end Parts

end Passage

/-! ## States before and behind a passage -/

namespace PassState

/-- The state behind a passage. -/
def after (state : PassState) (passage : Passage) : PassState :=
  { state with
    cursor := state.cursor + passage.tokens.length
    labels := state.labels.advance passage.numbers
    code := state.code ++ passage.code
    subroutines := state.subroutines ++ passage.subroutines
    walk := state.walk ++ passage.walk }

private theorem array_append_append {α : Type} (items : Array α)
    (first second : List α) :
    items ++ (first ++ second) = items ++ first ++ second := by
  apply Array.ext'
  simp

theorem after_append (state : PassState) (first second : Passage) :
    state.after (first ++ second) = (state.after first).after second := by
  simp [after, Nat.add_assoc, LabelCounters.advance_advance,
    array_append_append]

@[simp]
theorem after_empty (state : PassState) :
    state.after Passage.empty = state := by
  simp [after, Passage.empty, Passage.tokens, LabelCounters.advance]

theorem rest_after (state : PassState) (passage : Passage) :
    (state.after passage).rest =
      state.rest.drop passage.tokens.length := by
  simp [after, rest]

def enter (state : PassState) (node : Node) : PassState :=
  { state with walk := state.walk.push (.enter node) }

def leave (state : PassState) (node : Node) : PassState :=
  { state with walk := state.walk.push (.leave node) }

@[simp]
theorem labels_enter (state : PassState) (node : Node) :
    (state.enter node).labels = state.labels := rfl

@[simp]
theorem rest_enter (state : PassState) (node : Node) :
    (state.enter node).rest = state.rest := rfl

@[simp]
theorem rest_leave (state : PassState) (node : Node) :
    (state.leave node).rest = state.rest := rfl

end PassState

namespace Passage

/-- A passage connects two states: its tokens come next in the first one, the
numbers it takes are left there, and the second one is behind it. -/
structure Connects (passage : Passage) (before behind : PassState) :
    Prop where
  behind_eq : behind = before.after passage
  rest_eq : before.rest = passage.tokens ++ behind.rest
  allowed : before.labels.Allow passage.numbers

namespace Connects

variable {first second passage : Passage}
variable {before between behind : PassState}

theorem labels_eq (connects : passage.Connects before behind) :
    behind.labels = before.labels.advance passage.numbers := by
  rw [connects.behind_eq]
  rfl

theorem used_eq (connects : passage.Connects before behind) :
    behind.labels.used =
      fun kind => before.labels.used kind + passage.numbers kind := by
  rw [connects.labels_eq, LabelCounters.used_advance]

/-- The tokens of a passage that connects two states decide the next token of
the first one. -/
theorem next?_eq (connects : passage.Connects before behind) :
    before.next? = (passage.tokens ++ behind.rest).head? := by
  rw [PassState.next?_eq_head?, connects.rest_eq]

/-- A passage whose tokens come next leads to the state behind it. -/
theorem of_rest {rest : List Token}
    (next : before.rest = passage.tokens ++ rest)
    (allowed : before.labels.Allow passage.numbers) :
    passage.Connects before (before.after passage) ∧
      (before.after passage).rest = rest := by
  have restBehind : (before.after passage).rest = rest := by
    rw [PassState.rest_after, next, List.drop_left]
  exact ⟨⟨rfl, by rw [next, restBehind], allowed⟩, restBehind⟩

theorem refl (state : PassState) : empty.Connects state state where
  behind_eq := by simp
  rest_eq := by simp
  allowed := fun _ => Nat.zero_le _

theorem append (connectsFirst : first.Connects before between)
    (connectsSecond : second.Connects between behind) :
    (first ++ second).Connects before behind where
  behind_eq := by
    rw [PassState.after_append, ← connectsFirst.behind_eq,
      ← connectsSecond.behind_eq]
  rest_eq := by
    rw [connectsFirst.rest_eq, connectsSecond.rest_eq, tokens_append,
      List.append_assoc]
  allowed := by
    rw [numbers_append, LabelCounters.allow_add_iff,
      ← connectsFirst.labels_eq]
    exact ⟨connectsFirst.allowed, connectsSecond.allowed⟩

/-- Between two passages there is a state that both of them connect. -/
theorem split (connects : (first ++ second).Connects before behind) :
    ∃ between, first.Connects before between ∧
      second.Connects between behind := by
  have numbersLeft := connects.allowed
  rw [numbers_append, LabelCounters.allow_add_iff] at numbersLeft
  have next :
      before.rest = first.tokens ++ (second.tokens ++ behind.rest) := by
    rw [connects.rest_eq, tokens_append, List.append_assoc]
  obtain ⟨connectsFirst, restBehindFirst⟩ :=
    of_rest next numbersLeft.1
  refine ⟨before.after first, connectsFirst, ?_, restBehindFirst,
    numbersLeft.2⟩
  rw [connects.behind_eq, PassState.after_append]

/-- A passage that stands inside a node connects the states outside of it. -/
theorem inside (node : Node)
    (connects : passage.Connects (before.enter node) between) :
    (passage.inside node).Connects before (between.leave node) where
  behind_eq := by
    rw [connects.behind_eq]
    have walks :
        (before.walk.push (.enter node) ++ passage.walk).push
            (.leave node) =
          before.walk ++ (passage.inside node).walk := by
      apply Array.ext'
      simp [Passage.inside]
    simp only [PassState.after, PassState.enter, PassState.leave,
      tokens_inside, walks]
    rfl
  rest_eq := by
    simpa using connects.rest_eq
  allowed := connects.allowed

/-- The states inside of a node are connected if the states outside are. -/
theorem of_inside {node : Node}
    (connects : (passage.inside node).Connects before behind) :
    ∃ between, passage.Connects (before.enter node) between ∧
      behind = between.leave node := by
  have next :
      (before.enter node).rest = passage.tokens ++ behind.rest := by
    rw [PassState.rest_enter, connects.rest_eq, tokens_inside]
  have connectsInside := (of_rest next connects.allowed).1
  refine ⟨(before.enter node).after passage, connectsInside, ?_⟩
  rw [connects.behind_eq, (connectsInside.inside node).behind_eq]

end Connects

end Passage

end JackToVm
