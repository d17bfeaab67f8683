import JackToVm.Grammar.Statement

/-!
# Classes of the grammar

Classes as they are written: the variables, and then the subroutines, each
with its parameters, its local variables and its statements. The tokens of a
class are the yield of its derivation tree.
-/

namespace JackToVm

/-! ## Declarations -/

/-- Variables that are declared together. -/
structure VariableList where
  type : TypeName
  /-- The name that is declared first. -/
  first : String
  others : List String
deriving DecidableEq, Repr

structure ClassVariableList extends VariableList where
  kind : ClassVariableKind
deriving DecidableEq, Repr

structure Parameter where
  type : TypeName
  name : String
deriving DecidableEq, Repr

structure SubroutineDeclaration where
  kind : SubroutineKind
  /-- The type of the result; none for `void`. -/
  result : Option TypeName
  name : String
  parameters : List Parameter
  declarations : List VariableList
  body : Statements

structure ClassDeclaration where
  name : String
  declarations : List ClassVariableList
  subroutines : List SubroutineDeclaration

def VariableList.names (list : VariableList) : List String :=
  list.first :: list.others

/-! ## Derivation trees -/

def TypeName.derivation (type : TypeName) : DerivationTree :=
  .leaf type.token

/-- The type, the names with commas between them, and the semicolon. -/
def VariableList.children (list : VariableList) : List DerivationTree :=
  list.type.derivation :: .name list.first ::
    list.others.flatMap (fun name => [.symbol .comma, .name name]) ++
      [.symbol .semicolon]

def VariableList.derivation (list : VariableList) : DerivationTree :=
  .branch .varDec (.keyword .var :: list.children)

def ClassVariableList.derivation (list : ClassVariableList) :
    DerivationTree :=
  .branch .classVarDec (.keyword list.kind.keyword :: list.children)

def Parameter.children (parameter : Parameter) : List DerivationTree :=
  [parameter.type.derivation, .name parameter.name]

/-- What stands inside the node of a parameter list. -/
def Parameter.childrenOfList : List Parameter → List DerivationTree
  | [] => []
  | first :: others =>
      first.children ++
        others.flatMap fun parameter => .symbol .comma :: parameter.children

namespace SubroutineDeclaration

def resultDerivation (subroutine : SubroutineDeclaration) : DerivationTree :=
  match subroutine.result with
  | some type => type.derivation
  | none => .keyword .void

def bodyDerivation (subroutine : SubroutineDeclaration) : DerivationTree :=
  .branch .subroutineBody
    (.symbol .leftBrace ::
      subroutine.declarations.map VariableList.derivation ++
        [subroutine.body.derivation, .symbol .rightBrace])

def derivation (subroutine : SubroutineDeclaration) : DerivationTree :=
  .branch .subroutineDec
    [.keyword subroutine.kind.keyword, subroutine.resultDerivation,
      .name subroutine.name, .symbol .leftParen,
      .branch .parameterList (Parameter.childrenOfList subroutine.parameters),
      .symbol .rightParen, subroutine.bodyDerivation]

end SubroutineDeclaration

namespace ClassDeclaration

def derivation (declared : ClassDeclaration) : DerivationTree :=
  .branch .classDec
    ([.keyword .classWord, .name declared.name, .symbol .leftBrace] ++
      declared.declarations.map ClassVariableList.derivation ++
      declared.subroutines.map SubroutineDeclaration.derivation ++
      [.symbol .rightBrace])

def tokens (declared : ClassDeclaration) : List Token :=
  declared.derivation.yield

/-- The number of statements of a kind in a class. -/
def count (declared : ClassDeclaration) (kind : LabelKind) : Nat :=
  declared.subroutines.foldr (fun subroutine behind =>
    subroutine.body.count kind + behind) 0

end ClassDeclaration

end JackToVm
