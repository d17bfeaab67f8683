import JackToVm.Derivation
import JackToVm.Program
import JackToVm.Vocabulary

/-!
# The pass over a token list

A compilation is one pass over the tokens. Its state holds the place reached,
the label numbers left, and what was written so far: the commands, the
finished subroutines, and the walk through the derivation tree. A step that
fails ends the pass; the label numbers that were taken stay taken.
-/

namespace JackToVm

/-- The state of a pass over a token list. -/
structure PassState where
  tokens : Array Token
  /-- The number of tokens already taken. -/
  cursor : Nat
  labels : LabelCounters
  /-- The commands written so far. -/
  code : Array Command
  /-- The finished subroutines. -/
  subroutines : Array (String × SymbolTable)
  /-- The walk through the part of the derivation tree read so far. -/
  walk : Array Step

/-- A step of a pass: it reads tokens and writes commands, or fails. -/
abbrev Pass (α : Type) := EStateM CompileError PassState α

namespace PassState

def start (tokens : List Token) (labels : LabelCounters) : PassState where
  tokens := tokens.toArray
  cursor := 0
  labels := labels
  code := #[]
  subroutines := #[]
  walk := #[]

def next? (state : PassState) : Option Token :=
  state.tokens[state.cursor]?

/-- The tokens that are not taken yet. -/
def rest (state : PassState) : List Token :=
  state.tokens.toList.drop state.cursor

def remaining (state : PassState) : Nat :=
  state.tokens.size - state.cursor

/-- The state behind the next token. -/
def advance (state : PassState) : PassState :=
  match state.next? with
  | some token =>
      { state with
        cursor := state.cursor + 1
        walk := state.walk.push (.leaf token) }
  | none => state

@[simp]
theorem rest_start (tokens : List Token) (labels : LabelCounters) :
    (start tokens labels).rest = tokens := by
  simp [start, rest]

theorem next?_eq_head? (state : PassState) :
    state.next? = state.rest.head? := by
  simp [next?, rest, List.head?_drop]

theorem length_rest (state : PassState) :
    state.rest.length = state.remaining := by
  simp [rest, remaining]

theorem rest_advance (state : PassState) :
    state.advance.rest = state.rest.tail := by
  cases next : state.next? with
  | some token => simp [advance, next, rest, List.tail_drop]
  | none =>
      have atEnd : state.tokens.size ≤ state.cursor := by
        simpa [next?] using next
      simp [advance, next, rest, List.drop_eq_nil_of_le, atEnd]

end PassState

/-! ## Steps -/

namespace Pass

/-- The state in which a step ends, also when it fails. -/
def finalState {α : Type} :
    EStateM.Result CompileError PassState α → PassState
  | .ok _ final | .error _ final => final

/-- Why a step fails; none if it succeeds. -/
def cause? {α : Type} :
    EStateM.Result CompileError PassState α → Option CompileError
  | .ok _ _ => none
  | .error cause _ => some cause

/-- The next token, which stays where it is. -/
def peek : Pass (Option Token) := do
  return (← get).next?

/-- Whether the next token is the given one. -/
def nextIs (token : Token) : Pass Bool := do
  return (← peek) == some token

def advance : Pass Unit :=
  modify PassState.advance

def emit (commands : List Command) : Pass Unit :=
  modify fun state => { state with code := state.code ++ commands }

/-- Fails because the grammar asks for something else than the next token. -/
def unexpected {α : Type} (expected : Expectation) : Pass α := do
  throw (.unexpected expected (← peek))

def expectKeyword (reserved : Keyword) : Pass Unit := do
  if ← nextIs (.keyword reserved) then
    advance
  else
    unexpected (.keyword reserved)

def expectSymbol (sign : Symbol) : Pass Unit := do
  if ← nextIs (.symbol sign) then
    advance
  else
    unexpected (.symbol sign)

def expectName (role : NameRole) : Pass String := do
  match ← peek with
  | some (.identifier name) =>
      advance
      return name
  | _ => unexpected (.name role)

def expectType : Pass TypeName := do
  match (← peek).bind TypeName.ofToken? with
  | some type =>
      advance
      return type
  | none => unexpected .type

/-- Takes the labels of the next statement of a kind. -/
def takeLabels (kind : LabelKind) : Pass LabelPair := do
  let state ← get
  match state.labels.take? kind with
  | some (labels, counters) =>
      set { state with labels := counters }
      return labels
  | none => throw (.limit (.labels kind))

/-- The variable that a name must refer to. -/
def require (scope : Scope) (name : String) : Pass Variable :=
  match scope.resolve? name with
  | some resolved => return resolved
  | none => throw (.unresolved name)

/-! ## Nodes and repetitions -/

/-- Runs the body of a node between entering and leaving it. -/
def within {α : Type} (node : Node) (body : Pass α) : Pass α := do
  modify fun state => { state with walk := state.walk.push (.enter node) }
  let result ← body
  modify fun state => { state with walk := state.walk.push (.leave node) }
  return result

def tooDeep {α : Type} (node : Node) : Pass α :=
  throw (.limit (.depth node))

/-- Runs `body` for the next token while `wanted` selects that token, at most
`count` times. Each round goes on with the result of the round before it. -/
def repeatAtMost {α β : Type} (wanted : Token → Option α)
    (body : α → β → Pass β) : Nat → β → Pass β
  | 0, result => return result
  | count + 1, result => do
      match (← peek).bind wanted with
      | some choice => repeatAtMost wanted body count (← body choice result)
      | none => return result

/-- Runs `body` for the next token while `wanted` selects that token. A body
takes at least that token, so there are no more rounds than tokens left. -/
def repeatWhile {α β : Type} (wanted : Token → Option α)
    (body : α → β → Pass β) (initial : β) : Pass β := do
  repeatAtMost wanted body (← get).remaining initial

/-- Selects the given token only. -/
def exactly (token found : Token) : Option Unit :=
  if found = token then some () else none

theorem exactly_eq_some_iff {token found : Token} {choice : Unit} :
    exactly token found = some choice ↔ found = token := by
  simp [exactly]

theorem bind_exactly_eq_none_iff {token : Token} {next : Option Token} :
    next.bind (exactly token) = none ↔ next ≠ some token := by
  cases next <;> simp [exactly]

/-- Runs `item` once, and again behind every comma. -/
def commaSeparated {β : Type} (item : β → Pass β) (initial : β) : Pass β := do
  repeatWhile (exactly (.symbol .comma))
    (fun () result => do
      advance
      item result)
    (← item initial)

end Pass

end JackToVm
