import JackToVm.Derivation

/-!
# Derivation trees

A derivation tree has tokens at its leaves and non-terminals inside. Its
`yield` is the token list that it derives, its `walk` lists it in the order of
reading, and its `text` shows every node as a group of markup around its
children.
-/

namespace JackToVm

/-- A derivation tree of the grammar, or a part of one. -/
inductive DerivationTree where
  | leaf (token : Token)
  | branch (node : Node) (children : List DerivationTree)

namespace DerivationTree

mutual

/-- The tokens at the leaves, from left to right. -/
def yield : DerivationTree → List Token
  | .leaf token => [token]
  | .branch _ children => yieldOfList children

/-- The tokens at the leaves of several trees. -/
def yieldOfList : List DerivationTree → List Token
  | [] => []
  | tree :: trees => tree.yield ++ yieldOfList trees

end

mutual

/-- The largest number of nodes that stand inside one another. -/
def height : DerivationTree → Nat
  | .leaf _ => 0
  | .branch _ children => heightOfList children + 1

/-- The height of the highest of several trees. -/
def heightOfList : List DerivationTree → Nat
  | [] => 0
  | tree :: trees => max tree.height (heightOfList trees)

end

mutual

def walk : DerivationTree → List Step
  | .leaf token => [.leaf token]
  | .branch node children =>
      .enter node :: walkOfList children ++ [.leave node]

def walkOfList : List DerivationTree → List Step
  | [] => []
  | tree :: trees => tree.walk ++ walkOfList trees

end

mutual

/-- The text of a tree that stands inside `depth` nodes. -/
def text (depth : Nat) : DerivationTree → String
  | .leaf token => token.markup depth
  | .branch node children =>
      Markup.group node.tag (textOfList (depth + 1) children) depth

/-- The text of several trees that stand inside the same nodes. -/
def textOfList (depth : Nat) : List DerivationTree → String
  | [] => ""
  | tree :: trees => tree.text depth ++ textOfList depth trees

end

/-! ## Several trees -/

theorem heightOfList_append (first second : List DerivationTree) :
    heightOfList (first ++ second) =
      max (heightOfList first) (heightOfList second) := by
  induction first with
  | nil => simp [heightOfList]
  | cons tree trees inductionHypothesis =>
      simp only [List.cons_append, heightOfList, inductionHypothesis,
        Nat.max_assoc]

@[simp]
theorem height_branch (node : Node) (children : List DerivationTree) :
    (branch node children).height = heightOfList children + 1 := rfl

@[simp]
theorem heightOfList_nil : heightOfList [] = 0 := rfl

@[simp]
theorem heightOfList_cons_le_iff {tree : DerivationTree}
    {trees : List DerivationTree} {room : Nat} :
    heightOfList (tree :: trees) ≤ room ↔
      tree.height ≤ room ∧ heightOfList trees ≤ room := by
  rw [heightOfList, Nat.max_le]

@[simp]
theorem heightOfList_append_le_iff {first second : List DerivationTree}
    {room : Nat} :
    heightOfList (first ++ second) ≤ room ↔
      heightOfList first ≤ room ∧ heightOfList second ≤ room := by
  rw [heightOfList_append, Nat.max_le]

theorem yieldOfList_append (first second : List DerivationTree) :
    yieldOfList (first ++ second) =
      yieldOfList first ++ yieldOfList second := by
  induction first with
  | nil => rfl
  | cons tree trees inductionHypothesis =>
      simp only [List.cons_append, yieldOfList, inductionHypothesis,
        List.append_assoc]

theorem yieldOfList_flatMap {γ : Type} (treesOf : γ → List DerivationTree)
    (list : List γ) :
    yieldOfList (list.flatMap treesOf) =
      list.flatMap fun one => yieldOfList (treesOf one) := by
  induction list with
  | nil => rfl
  | cons first others inductionHypothesis =>
      rw [List.flatMap_cons, yieldOfList_append, inductionHypothesis,
        List.flatMap_cons]

theorem mem_yieldOfList_iff {token : Token}
    {trees : List DerivationTree} :
    token ∈ yieldOfList trees ↔ ∃ tree ∈ trees, token ∈ tree.yield := by
  induction trees with
  | nil => simp [yieldOfList]
  | cons tree trees inductionHypothesis =>
      simp [yieldOfList, inductionHypothesis]

@[simp]
theorem walkOfList_append (first second : List DerivationTree) :
    walkOfList (first ++ second) =
      walkOfList first ++ walkOfList second := by
  induction first with
  | nil => rfl
  | cons tree trees inductionHypothesis =>
      simp only [List.cons_append, walkOfList, inductionHypothesis,
        List.append_assoc]

end DerivationTree

end JackToVm
