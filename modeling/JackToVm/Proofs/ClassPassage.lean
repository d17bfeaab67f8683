import JackToVm.Proofs.StatementPassage

/-!
# Passages of classes

The passages of declarations, subroutines and classes, composed of the
passages of their parts. The passage of a class lists what its tree says: the
walk through the tree, the code of its subroutines, and one label number for
every loop and branch.
-/

namespace JackToVm

open Passage

/-- The passages of several things, one after the other. -/
def Passage.ofList {γ : Type} (passageOf : γ → Passage) :
    List γ → Passage
  | [] => empty
  | first :: others => passageOf first ++ ofList passageOf others

/-! ## Declarations of variables -/

/-- A passage behind a comma. -/
def Passage.behindComma (passage : Passage) : Passage :=
  symbol .comma ++ passage

/-- The passage of the type, the names and the semicolon. -/
def VariableList.passage (list : VariableList) : Passage :=
  concat [leaf list.type.token, name list.first,
    ofList (fun other => (name other).behindComma) list.others,
    symbol .semicolon]

def VariableList.localPassage (list : VariableList) : Passage :=
  (keyword .var ++ list.passage).inside .varDec

def ClassVariableList.passage (list : ClassVariableList) : Passage :=
  (keyword list.kind.keyword ++ list.toVariableList.passage).inside
    .classVarDec

def Parameter.passage (parameter : Parameter) : Passage :=
  leaf parameter.type.token ++ Passage.name parameter.name

/-- The passage inside the node of a parameter list. -/
def Parameter.passageOfList : List Parameter → Passage
  | [] => empty
  | first :: others =>
      first.passage ++
        ofList (fun other => other.passage.behindComma) others

/-! ## Subroutines and classes -/

/-- The token of the type of a result. -/
def TypeName.resultToken : Option TypeName → Token
  | some type => type.token
  | none => .keyword .void

namespace SubroutineDeclaration

variable (subroutine : SubroutineDeclaration) (className : String)
variable (classTable : SymbolTable) (used : NumbersUsed)

def bodyPassage : Passage :=
  (concat [symbol .leftBrace,
    ofList VariableList.localPassage subroutine.declarations,
    emitted (subroutine.opening className classTable),
    (subroutine.body.passage (subroutine.scope className classTable)
      used).inside .statements,
    symbol .rightBrace]).inside .subroutineBody

def declarationPassage : Passage :=
  (concat [keyword subroutine.kind.keyword,
    leaf (TypeName.resultToken subroutine.result),
    Passage.name subroutine.name, symbol .leftParen,
    (Parameter.passageOfList subroutine.parameters).inside .parameterList,
    symbol .rightParen,
    subroutine.bodyPassage className classTable used]).inside
      .subroutineDec

def passage : Passage :=
  subroutine.declarationPassage className classTable used ++
    finished (qualifiedName className subroutine.name)
      (subroutine.table className)

/-- The passages of several subroutines. Each one takes its label numbers
behind those of the subroutines before it. -/
def passageOfList (className : String) (classTable : SymbolTable) :
    List SubroutineDeclaration → NumbersUsed → Passage
  | [], _ => empty
  | first :: others, used =>
      first.passage className classTable used ++
        passageOfList className classTable others (used.behind first.body)

end SubroutineDeclaration

def ClassDeclaration.passage (declared : ClassDeclaration)
    (used : NumbersUsed) : Passage :=
  (concat [keyword .classWord, Passage.name declared.name,
    symbol .leftBrace,
    ofList ClassVariableList.passage declared.declarations,
    SubroutineDeclaration.passageOfList declared.name declared.table
      declared.subroutines used,
    symbol .rightBrace]).inside .classDec

/-! ## Declarations write nothing -/

theorem Passage.ofList_eq_ofTrees {γ : Type} (passageOf : γ → Passage)
    (treesOf : γ → List DerivationTree)
    (reading : ∀ one, passageOf one = ofTrees (treesOf one) [])
    (list : List γ) :
    ofList passageOf list = ofTrees (list.flatMap treesOf) [] := by
  induction list with
  | nil => rfl
  | cons first others inductionHypothesis =>
      rw [ofList, reading first, inductionHypothesis]
      ext <;> simp [ofTrees, empty]

theorem VariableList.passage_eq (list : VariableList) :
    list.passage = ofTrees list.children [] := by
  have others := Passage.ofList_eq_ofTrees
    (fun other => (name other).behindComma)
    (fun other => [.symbol .comma, .name other])
    (fun _ => rfl) list.others
  rw [passage, others]
  ext <;>
    simp [concat, leaf, ofTrees, empty, children, TypeName.derivation,
      DerivationTree.walkOfList, DerivationTree.walk, DerivationTree.name,
      DerivationTree.symbol]

theorem VariableList.localPassage_eq (list : VariableList) :
    list.localPassage = ofTrees [list.derivation] [] := by
  rw [localPassage, passage_eq]
  ext <;>
    simp [leaf, ofTrees, empty, derivation, DerivationTree.walkOfList,
      DerivationTree.walk, DerivationTree.keyword]

theorem ClassVariableList.passage_eq (list : ClassVariableList) :
    list.passage = ofTrees [list.derivation] [] := by
  rw [passage, VariableList.passage_eq]
  ext <;>
    simp [leaf, ofTrees, empty, derivation, DerivationTree.walkOfList,
      DerivationTree.walk, DerivationTree.keyword]

@[simp]
theorem ClassVariableList.numbers_passages
    (declarations : List ClassVariableList) :
    (ofList ClassVariableList.passage declarations).numbers =
      fun _ => 0 := by
  rw [Passage.ofList_eq_ofTrees _ _ passage_eq, numbers_ofTrees]

theorem Parameter.passageOfList_eq (parameters : List Parameter) :
    passageOfList parameters = ofTrees (childrenOfList parameters) [] := by
  cases parameters with
  | nil => rfl
  | cons first others =>
      have others := Passage.ofList_eq_ofTrees
        (fun other => (passage other).behindComma)
        (fun other => .symbol .comma :: children other)
        (fun _ => rfl) others
      rw [passageOfList, others]
      ext <;>
        simp [passage, leaf, ofTrees, empty, childrenOfList, children,
          TypeName.derivation, DerivationTree.walkOfList,
          DerivationTree.walk, DerivationTree.name]

@[simp]
theorem Parameter.numbers_passageOfList (parameters : List Parameter) :
    (passageOfList parameters).numbers = fun _ => 0 := by
  rw [passageOfList_eq, numbers_ofTrees]

/-! ## What the passages of subroutines and classes list -/

namespace SubroutineDeclaration

variable (subroutine : SubroutineDeclaration) (className : String)
variable (classTable : SymbolTable) (used : NumbersUsed)

theorem localPassages_eq (declarations : List VariableList) :
    ofList VariableList.localPassage declarations =
      ofTrees (declarations.map VariableList.derivation) [] := by
  rw [Passage.ofList_eq_ofTrees _ _ VariableList.localPassage_eq,
    List.map_eq_flatMap]

@[simp]
theorem numbers_localPassages (declarations : List VariableList) :
    (ofList VariableList.localPassage declarations).numbers =
      fun _ => 0 := by
  rw [localPassages_eq, numbers_ofTrees]

theorem resultDerivation_eq :
    subroutine.resultDerivation =
      .leaf (TypeName.resultToken subroutine.result) := by
  unfold resultDerivation TypeName.resultToken
  cases subroutine.result <;> rfl

theorem bodyPassage_eq :
    subroutine.bodyPassage className classTable used =
      { walk := subroutine.bodyDerivation.walk
        code := subroutine.code className classTable used
        numbers := fun kind => subroutine.body.count kind
        subroutines := [] } := by
  rw [bodyPassage, localPassages_eq]
  ext <;>
    simp [concat, leaf, emitted, ofTrees, empty, bodyDerivation, code,
      Statements.passage, Statements.derivation,
      DerivationTree.walkOfList, DerivationTree.walk,
      DerivationTree.symbol]

theorem passage_eq :
    subroutine.passage className classTable used =
      { walk := subroutine.derivation.walk
        code := subroutine.code className classTable used
        numbers := fun kind => subroutine.body.count kind
        subroutines := [subroutine.symbols className] } := by
  rw [passage, declarationPassage, bodyPassage_eq,
    Parameter.passageOfList_eq]
  ext <;>
    simp [concat, leaf, finished, ofTrees, empty, derivation, symbols,
      resultDerivation_eq, DerivationTree.walkOfList,
      DerivationTree.walk, DerivationTree.keyword, DerivationTree.name,
      DerivationTree.symbol]

theorem passageOfList_eq (className : String) (classTable : SymbolTable)
    (subroutines : List SubroutineDeclaration) (used : NumbersUsed) :
    passageOfList className classTable subroutines used =
      { walk := DerivationTree.walkOfList
          (subroutines.map SubroutineDeclaration.derivation)
        code := (codeOfList className classTable subroutines used).flatten
        numbers := fun kind =>
          subroutines.foldr (fun subroutine behind =>
            subroutine.body.count kind + behind) 0
        subroutines := subroutines.map (·.symbols className) } := by
  induction subroutines generalizing used with
  | nil => rfl
  | cons first others inductionHypothesis =>
      rw [passageOfList, inductionHypothesis, passage_eq]
      ext <;> simp [DerivationTree.walkOfList, codeOfList]

end SubroutineDeclaration

theorem ClassDeclaration.passage_eq (declared : ClassDeclaration)
    (used : NumbersUsed) :
    declared.passage used =
      { walk := declared.derivation.walk
        code := (declared.program used).commands
        numbers := fun kind => declared.count kind
        subroutines := (declared.program used).subroutines } := by
  rw [passage, SubroutineDeclaration.passageOfList_eq,
    Passage.ofList_eq_ofTrees _ _ ClassVariableList.passage_eq,
    ← List.map_eq_flatMap]
  ext <;>
    simp [concat, leaf, ofTrees, empty, derivation, program, count,
      DerivationTree.walkOfList, DerivationTree.walk,
      DerivationTree.keyword, DerivationTree.name, DerivationTree.symbol]

theorem ClassDeclaration.tokens_passage (declared : ClassDeclaration)
    (used : NumbersUsed) :
    (declared.passage used).tokens = declared.tokens := by
  rw [passage_eq]
  exact declared.derivation.tokens_walk

end JackToVm
