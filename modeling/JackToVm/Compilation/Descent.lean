import JackToVm.Compilation.Class

/-!
# Descents

A descent reads the grammar as it stands. Each of its procedures enters a node,
calls the procedures of the parts, and goes on for as long as the tokens ask for
it. A descent counts the nodes that are open and refuses one too many, but
neither its calls nor its loops are bounded beforehand, so a descent might go on
for ever. A pass is bounded in both: it is told how many nodes still fit, and
repeats nothing more often than there are tokens.

A descent is a program, and `Runs` says what becomes of it: the result, and all
the states on the way. If a program goes on for ever or does something that makes
no sense, then nothing becomes of it.
-/

namespace JackToVm

/-- The state of a descent: that of a pass, and the number of nodes that are
open. -/
structure DescentState extends PassState where
  depth : Nat

namespace DescentState

def start (tokens : List Token) (labels : LabelCounters) : DescentState where
  toPassState := PassState.start tokens labels
  depth := 0

end DescentState

/-! ## Parts of a term

A pass reads these within a term. A descent has procedures for them. -/

namespace Pass

/-- The code of a string constant, unless the string is too long. -/
def stringConstant (text : String) : Pass Unit :=
  if text.utf8ByteSize ≤ maxCount then
    emit (Fragment.string text)
  else
    throw (.limit .stringLength)

/-- A term behind the name that it begins with. -/
def nameTerm (scope : Scope) (room : Nat) (name : String) : Pass Unit := do
  match ← peek with
  | some (.symbol .leftBracket) =>
      let array ← require scope name
      advance
      emit [array.push]
      expression scope room
      expectSymbol .rightBracket
      emit (.operation .add :: Fragment.load)
  | some (.symbol .leftParen) | some (.symbol .dot) =>
      subroutineCall scope (expressionList scope room) name
  | _ => emit [(← require scope name).push]

end Pass

/-! ## Programs -/

/-- The procedures of a descent, each with what it is called with. -/
inductive Procedure where
  | classDec
  | classVarDec (kind : ClassVariableKind) (table : SymbolTable)
  | variableNames (type : TypeName) (kind : VariableKind)
      (table : SymbolTable)
  | subroutineDec (className : String) (classTable : SymbolTable)
      (kind : SubroutineKind)
  | parameterList (table : SymbolTable)
  | varDec (table : SymbolTable)
  | statements (scope : Scope)
  | letStatement (scope : Scope)
  | ifStatement (scope : Scope)
  | whileStatement (scope : Scope)
  | doStatement (scope : Scope)
  | returnStatement (scope : Scope)
  | expression (scope : Scope)
  | term (scope : Scope)
  | stringConstant (text : String)
  | nameTerm (scope : Scope) (name : String)
  | subroutineCall (scope : Scope) (name : String)
  | expressionList (scope : Scope) (target : String)

/-- What a procedure yields. -/
abbrev Procedure.Output : Procedure → Type
  | .classDec => Pass.ClassHead
  | .classVarDec _ _ | .variableNames _ _ _ => SymbolTable
  | .parameterList _ | .varDec _ => SymbolTable
  | .expressionList _ _ => Nat
  | .subroutineDec _ _ _ | .statements _ | .letStatement _ => Unit
  | .ifStatement _ | .whileStatement _ | .doStatement _ => Unit
  | .returnStatement _ | .expression _ | .term _ => Unit
  | .stringConstant _ | .nameTerm _ _ | .subroutineCall _ _ => Unit

/-- What comes of a small step in a state, and the state behind it, also when
it fails. There is none where the step makes no sense. -/
abbrev Action (α : Type) :=
  DescentState → Option (Except CompileError α × DescentState)

/-- A descent is done, or it takes a small step, calls a procedure or repeats
something, and goes on with what comes of that. Each round of a loop says
whether there is another one behind it. -/
inductive Descent : Type → Type 1 where
  | done {α : Type} (value : α) : Descent α
  | acts {α β : Type} (action : Action β) (later : β → Descent α) : Descent α
  | calls {α : Type} (procedure : Procedure)
      (later : procedure.Output → Descent α) : Descent α
  | loops {α β γ : Type} (round : β → Descent (β ⊕ γ)) (first : β)
      (later : γ → Descent α) : Descent α

namespace Descent

/-- One descent behind another. -/
def followedBy {α β : Type} : Descent α → (α → Descent β) → Descent β
  | done value, others => others value
  | acts action later, others =>
      acts action fun value => (later value).followedBy others
  | calls procedure later, others =>
      calls procedure fun value => (later value).followedBy others
  | loops round first later, others =>
      loops round first fun value => (later value).followedBy others

instance : Monad Descent where
  pure := done
  bind := followedBy

def act {α : Type} (action : Action α) : Descent α :=
  acts action done

def call (procedure : Procedure) : Descent procedure.Output :=
  calls procedure done

def loop {α β : Type} (round : α → Descent (α ⊕ β)) (first : α) :
    Descent β :=
  loops round first done

/-! ## Small steps -/

/-- A small step of a pass, which opens and closes no node. -/
def passing {α : Type} (step : Pass α) : Action α := fun before =>
  match step.run before.toPassState with
  | .ok value behind =>
      some (.ok value, { before with toPassState := behind })
  | .error cause behind =>
      some (.error cause, { before with toPassState := behind })

instance : MonadLift Pass Descent := ⟨fun step => act (passing step)⟩

/-- Moves on to the place behind the next token, whether there is one or
not. -/
def advance : Descent Unit :=
  act fun state =>
    some (.ok (), { state with
      cursor := state.cursor + 1
      walk := match state.next? with
        | some token => state.walk.push (.leaf token)
        | none => state.walk })

/-- Opens a node, unless too many are open. -/
def enter (node : Node) : Descent Unit :=
  act fun state =>
    if state.depth < Node.maxDepth then
      some (.ok (), { state with
        walk := state.walk.push (.enter node)
        depth := state.depth + 1 })
    else
      some (.error (.limit (.depth node)), state)

/-- Closes a node, which makes no sense where none is open. -/
def leave (node : Node) : Descent Unit :=
  act fun state =>
    match state.depth with
    | 0 => none
    | depth + 1 =>
        some (.ok (), { state with
          walk := state.walk.push (.leave node)
          depth := depth })

/-- Puts a subroutine among the finished ones. -/
def finish (finished : String × SymbolTable) : Descent Unit :=
  act fun state =>
    some (.ok (), { state with
      subroutines := state.subroutines.push finished })

open Pass (addArguments declare emit implicitArguments nextIs peek require
  takeLabels unexpected)

def expectKeyword (reserved : Keyword) : Descent Unit := do
  if ← nextIs (.keyword reserved) then
    advance
  else
    unexpected (.keyword reserved)

def expectSymbol (sign : Symbol) : Descent Unit := do
  if ← nextIs (.symbol sign) then
    advance
  else
    unexpected (.symbol sign)

def expectName (role : NameRole) : Descent String := do
  match ← peek with
  | some (.identifier name) =>
      advance
      return name
  | _ => unexpected (.name role)

def expectType : Descent TypeName := do
  match (← peek).bind TypeName.ofToken? with
  | some type =>
      advance
      return type
  | none => unexpected .type

/-- Takes the type of the result of a subroutine, or the word for none. -/
def expectResultType : Descent Unit := do
  if ← nextIs (.keyword .void) then
    advance
  else if ((← peek).bind TypeName.ofToken?).isSome then
    advance
  else
    unexpected .voidOrType

/-! ## Loops -/

/-- Runs `body` for the next token while `wanted` selects that token. -/
def repeatWhile {α β : Type} (wanted : Token → Option α)
    (body : α → β → Descent β) : β → Descent β :=
  loop fun result => do
    match (← peek).bind wanted with
    | some choice => return .inl (← body choice result)
    | none => return .inr result

/-- Runs `item` once, and again behind every comma. -/
def commaSeparated {β : Type} (item : β → Descent β) : β → Descent β :=
  loop fun result => do
    let result ← item result
    if ← nextIs (.symbol .comma) then
      advance
      return .inl result
    else
      return .inr result

/-! ## Expressions -/

def expression (scope : Scope) : Descent Unit := do
  enter .expression
  call (.term scope)
  repeatWhile Token.binaryOperator? (fun operator () => do
    advance
    call (.term scope)
    emit [operator.command]) ()
  leave .expression

def term (scope : Scope) : Descent Unit := do
  match ← peek with
  | none => unexpected .term
  | some first =>
      enter .term
      match first with
      | .integer value =>
          advance
          emit [.push .constant value]
      | .string text =>
          advance
          call (.stringConstant text)
      | .keyword reserved =>
          match KeywordConstant.ofKeyword? reserved with
          | some constant =>
              advance
              emit constant.commands
          | none => unexpected .term
      | .symbol .leftParen =>
          advance
          call (.expression scope)
          expectSymbol .rightParen
      | .symbol sign =>
          match sign.unaryOperator? with
          | some operator =>
              advance
              call (.term scope)
              emit [operator.command]
          | none => unexpected .term
      | .identifier name =>
          advance
          call (.nameTerm scope name)
      leave .term

/-- The code of a string constant, unless the string is too long. -/
def stringConstant (text : String) : Descent Unit :=
  if text.utf8ByteSize ≤ maxCount then
    emit (Fragment.string text)
  else
    liftM (throw (.limit .stringLength) : Pass Unit)

/-- A term behind the name that it begins with. -/
def nameTerm (scope : Scope) (name : String) : Descent Unit := do
  match ← peek with
  | some (.symbol .leftBracket) =>
      let array ← require scope name
      advance
      emit [array.push]
      call (.expression scope)
      expectSymbol .rightBracket
      emit (.operation .add :: Fragment.load)
  | some (.symbol .leftParen) | some (.symbol .dot) =>
      call (.subroutineCall scope name)
  | _ => emit [(← require scope name).push]

/-- What a call refers to, behind its first name: the full name of the
subroutine and the number of receivers. -/
def callTarget (scope : Scope) (name : String) : Descent (String × Nat) := do
  if ← nextIs (.symbol .dot) then
    advance
    let subroutine ← expectName .subroutine
    match scope.resolve? name with
    | some receiver =>
        emit [receiver.push]
        return (qualifiedName receiver.type subroutine, 1)
    | none => return (qualifiedName name subroutine, 0)
  else
    emit [.push .pointer 0]
    return (qualifiedName scope.className name, 1)

/-- A subroutine call behind its first name. -/
def subroutineCall (scope : Scope) (name : String) : Descent Unit := do
  let (target, receivers) ← callTarget scope name
  expectSymbol .leftParen
  let count ← call (.expressionList scope target)
  expectSymbol .rightParen
  emit [.call target (← addArguments target count receivers)]

/-- The arguments of a call of `target`; yields their number. -/
def expressionList (scope : Scope) (target : String) : Descent Nat := do
  enter .expressionList
  let count ← (do
    if ← nextIs (.symbol .rightParen) then
      return 0
    else
      commaSeparated (fun count => do
        call (.expression scope)
        addArguments target count 1) 0)
  leave .expressionList
  return count

/-! ## Statements -/

def letStatement (scope : Scope) : Descent Unit := do
  enter .letStatement
  expectKeyword .let
  let target ← require scope (← expectName .variable)
  if ← nextIs (.symbol .leftBracket) then
    advance
    emit [target.push]
    call (.expression scope)
    expectSymbol .rightBracket
    emit [.operation .add]
    expectSymbol .equal
    call (.expression scope)
    expectSymbol .semicolon
    emit Fragment.store
    leave .letStatement
  else
    expectSymbol .equal
    call (.expression scope)
    expectSymbol .semicolon
    emit [target.pop]
    leave .letStatement

def doStatement (scope : Scope) : Descent Unit := do
  enter .doStatement
  expectKeyword .do
  let name ← expectName .subroutine
  call (.subroutineCall scope name)
  expectSymbol .semicolon
  emit [.pop .temp 0]
  leave .doStatement

def returnStatement (scope : Scope) : Descent Unit := do
  enter .returnStatement
  expectKeyword .return
  if ← nextIs (.symbol .semicolon) then
    emit [.push .constant 0]
  else
    call (.expression scope)
  expectSymbol .semicolon
  emit [.return]
  leave .returnStatement

/-- An expression between parentheses, and the jump that is taken when it does
not hold. -/
def condition (scope : Scope) (otherwise : String) : Descent Unit := do
  expectSymbol .leftParen
  call (.expression scope)
  expectSymbol .rightParen
  emit [.operation .not, .ifGoto otherwise]

/-- Statements between braces. -/
def block (scope : Scope) : Descent Unit := do
  expectSymbol .leftBrace
  call (.statements scope)
  expectSymbol .rightBrace

def ifStatement (scope : Scope) : Descent Unit := do
  enter .ifStatement
  expectKeyword .if
  let labels ← takeLabels .if
  condition scope labels.start
  block scope
  emit [.goto labels.finish, .label labels.start]
  if ← nextIs (.keyword .else) then
    advance
    block scope
  emit [.label labels.finish]
  leave .ifStatement

def whileStatement (scope : Scope) : Descent Unit := do
  enter .whileStatement
  expectKeyword .while
  let labels ← takeLabels .while
  emit [.label labels.start]
  condition scope labels.finish
  block scope
  emit [.goto labels.start, .label labels.finish]
  leave .whileStatement

/-- Statements, up to the first token that begins none. -/
def statements (scope : Scope) : Descent Unit := do
  enter .statements
  repeatWhile StatementWord.ofToken? (fun word () =>
    match word with
    | .let => call (.letStatement scope)
    | .if => call (.ifStatement scope)
    | .while => call (.whileStatement scope)
    | .do => call (.doStatement scope)
    | .return => call (.returnStatement scope)) ()
  leave .statements

/-! ## Declarations -/

/-- Names of one type and kind, up to the semicolon behind them. -/
def variableNames (type : TypeName) (kind : VariableKind)
    (table : SymbolTable) : Descent SymbolTable := do
  let table ← commaSeparated (fun table => do
    let name ← expectName .variable
    declare name type.word kind table) table
  expectSymbol .semicolon
  return table

/-- A declaration in a class, begun where its keyword comes next. -/
def classVarDec (kind : ClassVariableKind) (table : SymbolTable) :
    Descent SymbolTable := do
  enter .classVarDec
  advance
  let type ← expectType
  let table ← call (.variableNames type kind.kind table)
  leave .classVarDec
  return table

def varDec (table : SymbolTable) : Descent SymbolTable := do
  enter .varDec
  expectKeyword .var
  let type ← expectType
  let table ← call (.variableNames type .local table)
  leave .varDec
  return table

def parameterList (table : SymbolTable) : Descent SymbolTable := do
  enter .parameterList
  let table ← (do
    if ← nextIs (.symbol .rightParen) then
      return table
    else
      commaSeparated (fun table => do
        let type ← expectType
        let name ← expectName .parameter
        declare name type.word .argument table) table)
  leave .parameterList
  return table

/-! ## Subroutines and classes -/

/-- The body of a subroutine between its braces; yields its variables. -/
def subroutineBody (className : String) (classTable : SymbolTable)
    (kind : SubroutineKind) (fullName : String) (table : SymbolTable) :
    Descent SymbolTable := do
  enter .subroutineBody
  expectSymbol .leftBrace
  let table ← repeatWhile (Pass.exactly (.keyword .var))
    (fun () table => call (.varDec table)) table
  emit (.function fullName (table.count .local) ::
    kind.prologue (classTable.count .field))
  call (.statements ⟨className, classTable, table⟩)
  expectSymbol .rightBrace
  leave .subroutineBody
  return table

/-- A subroutine, begun where its keyword comes next. -/
def subroutineDec (className : String) (classTable : SymbolTable)
    (kind : SubroutineKind) : Descent Unit := do
  let finished ← (do
    enter .subroutineDec
    advance
    expectResultType
    let name ← expectName .subroutine
    let table ← implicitArguments kind className
    expectSymbol .leftParen
    let table ← call (.parameterList table)
    expectSymbol .rightParen
    let fullName := qualifiedName className name
    let table ← subroutineBody className classTable kind fullName table
    leave .subroutineDec
    return (fullName, table))
  finish finished

def classDec : Descent Pass.ClassHead := do
  enter .classDec
  expectKeyword .classWord
  let name ← expectName .className
  expectSymbol .leftBrace
  let table ← repeatWhile ClassVariableKind.ofToken?
    (fun kind table => call (.classVarDec kind table)) SymbolTable.empty
  repeatWhile SubroutineKind.ofToken?
    (fun kind () => call (.subroutineDec name table kind)) ()
  expectSymbol .rightBrace
  leave .classDec
  return ⟨name, table⟩

/-- Exactly one class, and nothing behind it. -/
def compilationUnit : Descent Pass.ClassHead := do
  let head ← call .classDec
  if (← peek).isSome then
    unexpected .endOfFile
  return head

end Descent

/-- What a procedure does when it is called. -/
def Procedure.body : (procedure : Procedure) → Descent procedure.Output
  | .classDec => Descent.classDec
  | .classVarDec kind table => Descent.classVarDec kind table
  | .variableNames type kind table => Descent.variableNames type kind table
  | .subroutineDec className classTable kind =>
      Descent.subroutineDec className classTable kind
  | .parameterList table => Descent.parameterList table
  | .varDec table => Descent.varDec table
  | .statements scope => Descent.statements scope
  | .letStatement scope => Descent.letStatement scope
  | .ifStatement scope => Descent.ifStatement scope
  | .whileStatement scope => Descent.whileStatement scope
  | .doStatement scope => Descent.doStatement scope
  | .returnStatement scope => Descent.returnStatement scope
  | .expression scope => Descent.expression scope
  | .term scope => Descent.term scope
  | .stringConstant text => Descent.stringConstant text
  | .nameTerm scope name => Descent.nameTerm scope name
  | .subroutineCall scope name => Descent.subroutineCall scope name
  | .expressionList scope target => Descent.expressionList scope target

/-! ## Runs -/

namespace Descent

/-- What comes behind a round of a loop: the next one, or what comes behind the
loop. -/
def behindRound {α β γ : Type} (round : β → Descent (β ⊕ γ))
    (later : γ → Descent α) : β ⊕ γ → Descent α
  | .inl next => loops round next later
  | .inr value => later value

/-- A program that is begun in a state ends, if it does, with a result and in a
state behind it. On its way it visits some states: those behind each of its
small steps, one after the other. A procedure that is called does what its body
does. -/
inductive Runs {α : Type} : Descent α → DescentState → List DescentState →
    Except CompileError α → DescentState → Prop
  | done (value : α) (state : DescentState) :
      Runs (done value) state [] (.ok value) state
  | acts {β : Type} {action : Action β} {later : β → Descent α}
      {before between behind : DescentState} {value : β}
      {visited : List DescentState} {result : Except CompileError α}
      (acted : action before = some (.ok value, between))
      (ran : Runs (later value) between visited result behind) :
      Runs (acts action later) before (between :: visited) result behind
  | fails {β : Type} {action : Action β} {later : β → Descent α}
      {before behind : DescentState} {cause : CompileError}
      (acted : action before = some (.error cause, behind)) :
      Runs (acts action later) before [behind] (.error cause) behind
  | calls {procedure : Procedure} {later : procedure.Output → Descent α}
      {before behind : DescentState} {visited : List DescentState}
      {result : Except CompileError α}
      (ran : Runs (procedure.body.followedBy later) before visited result
        behind) :
      Runs (calls procedure later) before visited result behind
  | loops {β γ : Type} {round : β → Descent (β ⊕ γ)} {first : β}
      {later : γ → Descent α} {before behind : DescentState}
      {visited : List DescentState} {result : Except CompileError α}
      (ran : Runs ((round first).followedBy (behindRound round later)) before
        visited result behind) :
      Runs (loops round first later) before visited result behind

end Descent

end JackToVm
