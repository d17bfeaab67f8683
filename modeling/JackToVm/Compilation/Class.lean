import JackToVm.Compilation.Statement
import JackToVm.Token.Lexer

/-!
# Classes

The part of the pass that reads a class, its variables and its subroutines,
and the compilation of a whole token list or source text. `compile` gives the
label counters back in every case, so that the next source of the same run
goes on from there.
-/

namespace JackToVm.Pass

/-! ## Declarations -/

/-- Declares a name in a table. -/
def declare (name type : String) (kind : VariableKind) (table : SymbolTable) :
    Pass SymbolTable :=
  match table.insert name type kind with
  | (.ok _, table) => return table
  | (.error cause, _) => throw cause

/-- Names of one type and kind, up to the semicolon behind them. -/
def variableNames (type : TypeName) (kind : VariableKind)
    (table : SymbolTable) : Pass SymbolTable := do
  let table ← commaSeparated (fun table => do
    let name ← expectName .variable
    declare name type.word kind table) table
  expectSymbol .semicolon
  return table

def classVarDec (kind : ClassVariableKind) (table : SymbolTable) :
    Pass SymbolTable :=
  within .classVarDec do
    advance
    let type ← expectType
    variableNames type kind.kind table

def varDec (table : SymbolTable) : Pass SymbolTable :=
  within .varDec do
    expectKeyword .var
    let type ← expectType
    variableNames type .local table

def parameterList (table : SymbolTable) : Pass SymbolTable :=
  within .parameterList do
    if ← nextIs (.symbol .rightParen) then
      return table
    else
      commaSeparated (fun table => do
        let type ← expectType
        let name ← expectName .parameter
        declare name type.word .argument table) table

/-! ## Subroutines -/

/-- Takes the type of the result of a subroutine, or the word for none. -/
def expectResultType : Pass Unit := do
  if ← nextIs (.keyword .void) then
    advance
  else if ((← peek).bind TypeName.ofToken?).isSome then
    advance
  else
    unexpected .voidOrType

/-- The names that are declared before the parameters: the object of a
method. -/
def implicitArguments (kind : SubroutineKind) (className : String) :
    Pass SymbolTable :=
  match kind with
  | .method =>
      declare Keyword.this.word className .argument SymbolTable.empty
  | _ => return SymbolTable.empty

/-- The nodes that may stand inside one another within the body of a
subroutine, which stands inside the declaration and the class. -/
def bodyRoom : Nat := Node.maxDepth - 3

/-- The body of a subroutine between its braces; yields its variables. -/
def subroutineBody (className : String) (classTable : SymbolTable)
    (kind : SubroutineKind) (fullName : String) (table : SymbolTable) :
    Pass SymbolTable :=
  within .subroutineBody do
    expectSymbol .leftBrace
    let table ← repeatWhile (exactly (.keyword .var)) (fun () => varDec) table
    emit (.function fullName (table.count .local) ::
      kind.prologue (classTable.count .field))
    statements ⟨className, classTable, table⟩ bodyRoom
    expectSymbol .rightBrace
    return table

def subroutineDec (className : String) (classTable : SymbolTable)
    (kind : SubroutineKind) : Pass Unit := do
  let finished ← within .subroutineDec do
    advance
    expectResultType
    let name ← expectName .subroutine
    let table ← implicitArguments kind className
    expectSymbol .leftParen
    let table ← parameterList table
    expectSymbol .rightParen
    let fullName := qualifiedName className name
    let table ← subroutineBody className classTable kind fullName table
    return (fullName, table)
  modify fun state =>
    { state with subroutines := state.subroutines.push finished }

/-! ## A whole class -/

structure ClassHead where
  name : String
  table : SymbolTable

/-- A class: its variables, and then its subroutines. -/
def classDec : Pass ClassHead :=
  within .classDec do
    expectKeyword .classWord
    let name ← expectName .className
    expectSymbol .leftBrace
    let table ← repeatWhile ClassVariableKind.ofToken? classVarDec
      SymbolTable.empty
    repeatWhile SubroutineKind.ofToken? (fun kind () =>
      subroutineDec name table kind) ()
    expectSymbol .rightBrace
    return ⟨name, table⟩

/-- Exactly one class, and nothing behind it. -/
def compilationUnit : Pass ClassHead := do
  let head ← classDec
  if (← peek).isSome then
    unexpected .endOfFile
  return head

end JackToVm.Pass

namespace JackToVm

def runPass (tokens : List Token) (labels : LabelCounters) :
    EStateM.Result CompileError PassState Pass.ClassHead :=
  Pass.compilationUnit.run (PassState.start tokens labels)

/-- Compiles the tokens of one class. The label counters are returned also
when the class is refused: the numbers it took are not given out again. -/
def compile (tokens : List Token) (labels : LabelCounters) :
    Except CompileError Program × LabelCounters :=
  match runPass tokens labels with
  | .ok head final =>
      (.ok {
        className := head.name
        classTable := head.table
        subroutines := final.subroutines.toList
        commands := final.code.toList }, final.labels)
  | .error cause final => (.error cause, final.labels)

def compileSource (source : String) (labels : LabelCounters) :
    Except CompileError Program × LabelCounters :=
  match Token.scan source with
  | .ok tokens => compile tokens labels
  | .error cause => (.error (.lexical cause), labels)

/-- The walk through the derivation tree of the tokens of one class. It is
found with label counters of its own. -/
def derivation (tokens : List Token) : Except CompileError (List Step) :=
  match runPass tokens LabelCounters.initial with
  | .ok _ final => .ok final.walk.toList
  | .error cause _ => .error cause

end JackToVm
