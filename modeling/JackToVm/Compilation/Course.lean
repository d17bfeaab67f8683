import JackToVm.Compilation.Descent

/-!
# The course of a descent

`Course` says what may happen on the way of a descent, at every moment of it:
how many nodes may be open, and how many tokens taken. It also says what may have
changed behind it. `Procedure.EndsOrderly` says of a procedure that it ends, that
its course is in order, and that a pass comes to the same.
-/

namespace JackToVm

/-! ## Courses -/

/-- What was written before is written behind as well, and no label number is
given back. -/
structure PassState.Extends (behind before : PassState) : Prop where
  tokens_eq : behind.tokens = before.tokens
  walk_prefix : before.walk.toList <+: behind.walk.toList
  code_prefix : before.code.toList <+: behind.code.toList
  subroutines_prefix :
    before.subroutines.toList <+: behind.subroutines.toList
  used_le : ∀ kind, before.labels.used kind ≤ behind.labels.used kind

/-- A descent over `size` tokens may be in a state, if it is to keep `floor`
nodes open. -/
structure DescentState.IsAllowed (floor size : Nat) (state : DescentState) :
    Prop where
  floor_le : floor ≤ state.depth
  depth_le : state.depth ≤ Node.maxDepth
  cursor_le : state.cursor ≤ size

/-- What happens between two states of a descent if it visits some states on
its way and keeps `floor` nodes open. -/
structure Course (floor : Nat) (before : DescentState)
    (visited : List DescentState) (behind : DescentState) : Prop where
  extends_before : behind.Extends before.toPassState
  behind_mem : behind ∈ before :: visited
  allowed : ∀ state ∈ before :: visited,
    state.IsAllowed floor before.tokens.size

/-! ## Procedures -/

/-- What comes of a descent, as a pass shows it, which does not count the nodes
that are open. -/
def Descent.passResult {α : Type} (behind : DescentState) :
    Except CompileError α → EStateM.Result CompileError PassState α
  | .ok value => .ok value behind.toPassState
  | .error cause => .error cause behind.toPassState

namespace Procedure

/-- The same procedure of a pass, where `room` more nodes fit. -/
def pass (room : Nat) : (procedure : Procedure) → Pass procedure.Output
  | .classDec => Pass.classDec
  | .classVarDec kind table => Pass.classVarDec kind table
  | .variableNames type kind table => Pass.variableNames type kind table
  | .subroutineDec className classTable kind =>
      Pass.subroutineDec className classTable kind
  | .parameterList table => Pass.parameterList table
  | .varDec table => Pass.varDec table
  | .statements scope => Pass.statements scope room
  | .letStatement scope => Pass.letStatement scope room
  | .ifStatement scope => Pass.ifStatement scope room
  | .whileStatement scope => Pass.whileStatement scope room
  | .doStatement scope => Pass.doStatement scope room
  | .returnStatement scope => Pass.returnStatement scope room
  | .expression scope => Pass.expression scope room
  | .term scope => Pass.term scope room
  | .stringConstant text => Pass.stringConstant text
  | .nameTerm scope name => Pass.nameTerm scope room name
  | .subroutineCall scope name =>
      Pass.subroutineCall scope (Pass.expressionList scope room) name
  | .expressionList scope target => Pass.expressionList scope room target

/-- The rooms in which a pass may make a procedure. A pass begins a class and
its subroutines at the only place where they can stand, and declarations and
parameter lists only where they fit. -/
def Fits (room : Nat) : Procedure → Prop
  | .classDec => room = Node.maxDepth
  | .subroutineDec _ _ _ => room = Node.maxDepth - 1
  | .classVarDec _ _ | .parameterList _ | .varDec _ => 0 < room
  | _ => True

/-- A class calls for a declaration or a subroutine only where the keyword of
it comes next. -/
def IsIntroduced (state : DescentState) : Procedure → Prop
  | .classVarDec kind _ =>
      state.next?.bind ClassVariableKind.ofToken? = some kind
  | .subroutineDec _ _ kind =>
      state.next?.bind SubroutineKind.ofToken? = some kind
  | _ => True

/-- The number of tokens that a procedure takes at least when it succeeds. -/
def leastTokens : Procedure → Nat
  | .classDec | .classVarDec _ _ | .subroutineDec _ _ _ | .varDec _ => 1
  | .variableNames _ _ _ => 1
  | .letStatement _ | .ifStatement _ | .whileStatement _ => 1
  | .doStatement _ | .returnStatement _ => 1
  | .expression _ | .term _ | .subroutineCall _ _ => 1
  | .parameterList _ | .statements _ | .stringConstant _ => 0
  | .nameTerm _ _ | .expressionList _ _ => 0

/-- A procedure that begins in a state ends, and in one way only. On its way it
never closes a node that was open when it began; if it succeeds, just those
nodes are open again, and it has taken the tokens that it must. The pass, which
is told how many nodes fit, comes to the same. -/
def EndsOrderly (procedure : Procedure) (before : DescentState) : Prop :=
  ∃ visited result behind,
    procedure.body.Runs before visited result behind ∧
      (∀ others outcome last,
        procedure.body.Runs before others outcome last →
          others = visited ∧ outcome = result ∧ last = behind) ∧
      Course before.depth before visited behind ∧
      (∀ value, result = .ok value →
        behind.depth = before.depth ∧
          before.cursor + procedure.leastTokens ≤ behind.cursor) ∧
      ∀ room, before.depth + room = Node.maxDepth → procedure.Fits room →
        (procedure.pass room).run before.toPassState =
          Descent.passResult behind result

end Procedure

/-- A descent over a whole token list ends, and in one way only; the pass comes
to the same. If it succeeds, no node is open any more and no token is left. -/
def Descent.RunEndsOrderly (tokens : List Token) (labels : LabelCounters) :
    Prop :=
  ∃ visited result behind,
    Descent.compilationUnit.Runs (.start tokens labels) visited result
        behind ∧
      (∀ others outcome last,
        Descent.compilationUnit.Runs (.start tokens labels) others outcome
            last →
          others = visited ∧ outcome = result ∧ last = behind) ∧
      Course 0 (.start tokens labels) visited behind ∧
      (∀ head, result = .ok head →
        behind.depth = 0 ∧ behind.cursor = tokens.length) ∧
      runPass tokens labels = Descent.passResult behind result

end JackToVm
