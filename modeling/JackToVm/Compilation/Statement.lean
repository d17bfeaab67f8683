import JackToVm.Compilation.Pass
import JackToVm.Vm.Fragment

/-!
# Statements and expressions

The part of the pass that reads the body of a subroutine. Each function reads
one node of the derivation tree and writes its commands. The number `room`
says how many more nodes may stand inside one another at that place; a node
that finds no room ends the pass, and what stands inside of it finds one less.

Binary operators have no precedence: each is applied as soon as its right term
is read.
-/

namespace JackToVm.Pass

/-! ## Subroutine calls -/

/-- A number of arguments with one more, unless there are too many. -/
def addArguments (target : String) (count more : Nat) : Pass Nat :=
  if count + more ≤ maxCount then
    return count + more
  else
    throw (.limit (.arguments target))

/-- What a call refers to, behind its first name: the full name of the
subroutine and the number of receivers. A call without a dot is a method call
on the current object. A call through a variable is a method call on that
variable, a call through any other name one of a function of that class. -/
def callTarget (scope : Scope) (name : String) : Pass (String × Nat) := do
  if ← nextIs (.symbol .dot) then
    advance
    let subroutine ← expectName .subroutine
    match scope.resolve? name with
    | some receiver =>
        emit [receiver.push]
        return (qualifiedName receiver.type subroutine, 1)
    | none => return (qualifiedName name subroutine, 0)
  else
    emit [.push .pointer 0]
    return (qualifiedName scope.className name, 1)

/-- A subroutine call behind its first name. `arguments` reads the argument
list and counts it. -/
def subroutineCall (scope : Scope) (arguments : String → Pass Nat)
    (name : String) : Pass Unit := do
  let (target, receivers) ← callTarget scope name
  expectSymbol .leftParen
  let count ← arguments target
  expectSymbol .rightParen
  emit [.call target (← addArguments target count receivers)]

/-! ## Expressions -/

mutual

/-- An expression: terms with binary operators between them. -/
def expression (scope : Scope) : Nat → Pass Unit
  | 0 => tooDeep .expression
  | room + 1 => within .expression do
      term scope room
      repeatWhile Token.binaryOperator? (fun operator () => do
        advance
        term scope room
        emit [operator.command]) ()

/-- A term. What follows a name decides whether it is a variable, an element
of an array, or the beginning of a call. -/
def term (scope : Scope) : Nat → Pass Unit
  | 0 => do
      if (← peek).isNone then
        unexpected .term
      tooDeep .term
  | room + 1 => do
      match ← peek with
      | none => unexpected .term
      | some first => within .term do
          match first with
          | .integer value =>
              advance
              emit [.push .constant value]
          | .string text =>
              advance
              if text.utf8ByteSize ≤ maxCount then
                emit (Fragment.string text)
              else
                throw (.limit .stringLength)
          | .keyword reserved =>
              match KeywordConstant.ofKeyword? reserved with
              | some constant =>
                  advance
                  emit constant.commands
              | none => unexpected .term
          | .symbol .leftParen =>
              advance
              expression scope room
              expectSymbol .rightParen
          | .symbol sign =>
              match sign.unaryOperator? with
              | some operator =>
                  advance
                  term scope room
                  emit [operator.command]
              | none => unexpected .term
          | .identifier name =>
              advance
              match ← peek with
              | some (.symbol .leftBracket) =>
                  let array ← require scope name
                  advance
                  emit [array.push]
                  expression scope room
                  expectSymbol .rightBracket
                  emit (.operation .add :: Fragment.load)
              | some (.symbol .leftParen) | some (.symbol .dot) =>
                  subroutineCall scope (expressionList scope room) name
              | _ => emit [(← require scope name).push]

/-- The arguments of a call of `target`; yields their number. -/
def expressionList (scope : Scope) : Nat → String → Pass Nat
  | 0, _ => tooDeep .expressionList
  | room + 1, target => within .expressionList do
      if ← nextIs (.symbol .rightParen) then
        return 0
      else
        commaSeparated (fun count => do
          expression scope room
          addArguments target count 1) 0

end

/-! ## Statements -/

/-- A `let` statement. An assignment to an element of an array computes the
address first and keeps the value aside, because computing the value may
change where `that` points. -/
def letStatement (scope : Scope) : Nat → Pass Unit
  | 0 => tooDeep .letStatement
  | room + 1 => within .letStatement do
      expectKeyword .let
      let target ← require scope (← expectName .variable)
      if ← nextIs (.symbol .leftBracket) then
        advance
        emit [target.push]
        expression scope room
        expectSymbol .rightBracket
        emit [.operation .add]
        expectSymbol .equal
        expression scope room
        expectSymbol .semicolon
        emit Fragment.store
      else
        expectSymbol .equal
        expression scope room
        expectSymbol .semicolon
        emit [target.pop]

/-- A `do` statement; the result of the call is dropped. -/
def doStatement (scope : Scope) : Nat → Pass Unit
  | 0 => tooDeep .doStatement
  | room + 1 => within .doStatement do
      expectKeyword .do
      let name ← expectName .subroutine
      subroutineCall scope (expressionList scope room) name
      expectSymbol .semicolon
      emit [.pop .temp 0]

/-- A `return` statement; without an expression it returns zero. -/
def returnStatement (scope : Scope) : Nat → Pass Unit
  | 0 => tooDeep .returnStatement
  | room + 1 => within .returnStatement do
      expectKeyword .return
      if ← nextIs (.symbol .semicolon) then
        emit [.push .constant 0]
      else
        expression scope room
      expectSymbol .semicolon
      emit [.return]

/-- An expression between parentheses, and the jump that is taken when it does
not hold. -/
def condition (scope : Scope) (room : Nat) (otherwise : String) :
    Pass Unit := do
  expectSymbol .leftParen
  expression scope room
  expectSymbol .rightParen
  emit [.operation .not, .ifGoto otherwise]

/-- What `body` reads, between braces. -/
def braced (body : Pass Unit) : Pass Unit := do
  expectSymbol .leftBrace
  body
  expectSymbol .rightBrace

mutual

/-- A sequence of statements, up to the first token that begins none. -/
def statements (scope : Scope) : Nat → Pass Unit
  | 0 => tooDeep .statements
  | room + 1 => within .statements do
      repeatWhile StatementWord.ofToken? (fun word () =>
        match word with
        | .let => letStatement scope room
        | .if => ifStatement scope room
        | .while => whileStatement scope room
        | .do => doStatement scope room
        | .return => returnStatement scope room) ()

/-- An `if` statement, with or without an `else`. Its number is taken before
its condition is read. -/
def ifStatement (scope : Scope) : Nat → Pass Unit
  | 0 => tooDeep .ifStatement
  | room + 1 => within .ifStatement do
      expectKeyword .if
      let labels ← takeLabels .if
      condition scope room labels.start
      braced (statements scope room)
      emit [.goto labels.finish, .label labels.start]
      if ← nextIs (.keyword .else) then
        advance
        braced (statements scope room)
      emit [.label labels.finish]

/-- A `while` statement. Its number is taken before its condition is read. -/
def whileStatement (scope : Scope) : Nat → Pass Unit
  | 0 => tooDeep .whileStatement
  | room + 1 => within .whileStatement do
      expectKeyword .while
      let labels ← takeLabels .while
      emit [.label labels.start]
      condition scope room labels.finish
      braced (statements scope room)
      emit [.goto labels.start, .label labels.finish]

end

end JackToVm.Pass
