/-!
# Nodes of the derivation tree

The non-terminals of the grammar that a derivation tree shows, with the tags
under which its text shows them. Subroutine calls have no node of their own.
-/

namespace JackToVm

inductive Node where
  | classDec
  | classVarDec
  | subroutineDec
  | parameterList
  | subroutineBody
  | varDec
  | statements
  | letStatement
  | ifStatement
  | whileStatement
  | doStatement
  | returnStatement
  | expression
  | term
  | expressionList
deriving DecidableEq, Repr

namespace Node

def tag : Node → String
  | .classDec => "class"
  | .classVarDec => "classVarDec"
  | .subroutineDec => "subroutineDec"
  | .parameterList => "parameterList"
  | .subroutineBody => "subroutineBody"
  | .varDec => "varDec"
  | .statements => "statements"
  | .letStatement => "letStatement"
  | .ifStatement => "ifStatement"
  | .whileStatement => "whileStatement"
  | .doStatement => "doStatement"
  | .returnStatement => "returnStatement"
  | .expression => "expression"
  | .term => "term"
  | .expressionList => "expressionList"

/-- The number of nodes that may stand inside one another, the class
included. -/
def maxDepth : Nat := 256

end Node

end JackToVm
