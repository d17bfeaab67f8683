import JackToVm.Derivation.Tree
import JackToVm.Markup.Reading

/-!
# Outlines

How the text of a derivation tree is laid out, said on its lines: every node
has a line of its own where it opens and one where it closes, and every line
stands behind two spaces for each node that is open there.
-/

namespace JackToVm

namespace Node

def openingLine (node : Node) : String :=
  Markup.openTag node.tag

def closingLine (node : Node) : String :=
  Markup.closeTag node.tag

end Node

namespace DerivationTree

mutual

/-- The lines of a tree that stands inside `depth` nodes. -/
def lines (depth : Nat) : DerivationTree → List String
  | .leaf token => [Text.margin depth ++ token.line]
  | .branch node children =>
      (Text.margin depth ++ node.openingLine) ::
        linesOfList (depth + 1) children ++
          [Text.margin depth ++ node.closingLine]

/-- The lines of several trees that stand inside the same nodes. -/
def linesOfList (depth : Nat) : List DerivationTree → List String
  | [] => []
  | tree :: trees => tree.lines depth ++ linesOfList depth trees

end

end DerivationTree

/-- Lines inside `depth` open nodes are an outline: each stands behind the
margin of the nodes that are open there, and the lines that open and close
nodes come in pairs that stand inside one another or apart. What remains are
the `leaves`, which open and close nothing. -/
inductive IsOutline : Nat → List String → List String → Prop where
  | nil {depth : Nat} : IsOutline depth [] []
  | leaf {depth : Nat} {leaf : String} {lines leaves : List String} :
      (∀ node : Node, leaf ≠ node.openingLine ∧ leaf ≠ node.closingLine) →
      IsOutline depth lines leaves →
      IsOutline depth ((Text.margin depth ++ leaf) :: lines) (leaf :: leaves)
  | node {depth : Nat} {node : Node}
      {inside lines insideLeaves leaves : List String} :
      IsOutline (depth + 1) inside insideLeaves →
      IsOutline depth lines leaves →
      IsOutline depth
        ((Text.margin depth ++ node.openingLine) :: inside ++
          (Text.margin depth ++ node.closingLine) :: lines)
        (insideLeaves ++ leaves)

end JackToVm
