import JackToVm.Markup
import JackToVm.Node

/-!
# Walks through a derivation tree

A walk lists what a reader of a derivation tree meets: entering a node, a
token, leaving a node. The text of a tree puts each of these on a line of its
own, indented by the nodes that are open there.
-/

namespace JackToVm

/-- One step of a walk through a derivation tree. -/
inductive Step where
  | enter (node : Node)
  | leaf (token : Token)
  | leave (node : Node)
deriving DecidableEq, Repr

namespace Step

/-- The text of a step where `depth` nodes are open, and the number of nodes
open behind it. -/
def markup (depth : Nat) : Step → String × Nat
  | .enter node =>
      (Text.indent depth (Markup.openTag node.tag) ++ "\n", depth + 1)
  | .leaf token => (token.markup depth, depth)
  | .leave node =>
      (Text.indent (depth - 1) (Markup.closeTag node.tag) ++ "\n", depth - 1)

/-- The text of a walk that begins outside of every node. -/
def markupOfList (walk : List Step) : String :=
  (walk.foldl (fun (text, depth) step =>
    let (line, depth) := step.markup depth
    (text ++ line, depth)) ("", 0)).1

end Step

end JackToVm
