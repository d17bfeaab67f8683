import JackToVm.Grammar.Class
import JackToVm.Program
import JackToVm.Store
import JackToVm.Vm.Fragment

/-!
# The meaning of sources

What an expression computes and what a statement does, said on the tree and
without any code. Expressions always have a value, because the calls in them
do; operands are evaluated strictly from left to right. Statements may run
forever, so their meaning is a relation: `Statements.Runs body store ending
store'` says that `body`, begun in `store`, ends as `ending` says in `store'`.
-/

namespace JackToVm

/-! ## Operators and constants -/

/-- Applies a binary operator. Comparisons are signed; products and quotients
are calls. -/
def BinaryOperator.apply (callees : Callees) (operator : BinaryOperator)
    (left right : Word) (store : Store) : Word × Store :=
  match operator with
  | .add => (left + right, store)
  | .and => (left &&& right, store)
  | .divide => store.call callees Fragment.divide [left, right]
  | .equal => (Word.ofCondition (left == right), store)
  | .greater => (Word.ofCondition (right.slt left), store)
  | .less => (Word.ofCondition (left.slt right), store)
  | .multiply => store.call callees Fragment.multiply [left, right]
  | .or => (left ||| right, store)
  | .subtract => (left - right, store)

def UnaryOperator.apply (operator : UnaryOperator) (operand : Word) : Word :=
  match operator with
  | .negate => -operand
  | .not => ~~~operand

def KeywordConstant.value (store : Store) : KeywordConstant → Word
  | .true => Word.yes
  | .false => Word.no
  | .null => 0
  | .this => store.this

def appendBytes (callees : Callees) (bytes : List UInt8)
    (string : Word × Store) : Word × Store :=
  bytes.foldl (fun (string, store) byte =>
    store.call callees Fragment.stringAppend
      [string, BitVec.ofNat 16 byte.toNat]) string

def buildString (callees : Callees) (content : String) (store : Store) :
    Word × Store :=
  appendBytes callees content.toUTF8.toList
    (store.call callees Fragment.stringNew
      [BitVec.ofNat 16 content.utf8ByteSize])

/-! ## Names -/

/-- The word in the variable of a name, zero for a name without one. -/
def Scope.value (scope : Scope) (name : String) (store : Store) : Word :=
  ((scope.resolve? name).map store.read).getD 0

/-- The store with another word in the variable of a name. -/
def Scope.assign (scope : Scope) (name : String) (value : Word)
    (store : Store) : Store :=
  ((scope.resolve? name).map (store.write · value)).getD store

/-! ## Expressions -/

mutual

/-- The value of an expression, and the store behind its evaluation. -/
def Expression.evaluate (callees : Callees) (scope : Scope) :
    Expression → Store → Word × Store
  | .term only, store => only.evaluate callees scope store
  | .binary left operator right, store =>
      let (first, store) := left.evaluate callees scope store
      let (second, store) := right.evaluate callees scope store
      operator.apply callees first second store

def Term.evaluate (callees : Callees) (scope : Scope) :
    Term → Store → Word × Store
  | .integer value, store => (BitVec.ofNat 16 value, store)
  | .string content, store => buildString callees content store
  | .constant word, store => (word.value store, store)
  | .variable name, store => (scope.value name store, store)
  | .element array index, store =>
      let base := scope.value array store
      let (offset, store) := index.evaluate callees scope store
      (store.heap (base + offset), store)
  | .call target, store => target.evaluate callees scope store
  | .group inner, store => inner.evaluate callees scope store
  | .unary operator operand, store =>
      let (value, store) := operand.evaluate callees scope store
      (operator.apply value, store)

/-- The result of a call. The receiver is read before the arguments are
evaluated. -/
def SubroutineCall.evaluate (callees : Callees) (scope : Scope) :
    SubroutineCall → Store → Word × Store
  | .own name arguments, store =>
      let receiver := store.this
      let (values, store) := arguments.evaluate callees scope store
      store.call callees (qualifiedName scope.className name)
        (receiver :: values)
  | .through owner name arguments, store =>
      match scope.resolve? owner with
      | some object =>
          let receiver := store.read object
          let (values, store) := arguments.evaluate callees scope store
          store.call callees (qualifiedName object.type name)
            (receiver :: values)
      | none =>
          let (values, store) := arguments.evaluate callees scope store
          store.call callees (qualifiedName owner name) values

def ExpressionList.evaluate (callees : Callees) (scope : Scope) :
    ExpressionList → Store → List Word × Store
  | .nil, store => ([], store)
  | .cons first others, store =>
      let (value, store) := first.evaluate callees scope store
      let (values, store) := others.evaluate callees scope store
      (value :: values, store)

end

/-! ## Statements -/

mutual

inductive Statement.Runs (callees : Callees) (scope : Scope) :
    Statement → Store → Ending → Store → Prop where
  | letVariable {target : String} {value : Expression}
      {before after : Store} {word : Word} :
      value.evaluate callees scope before = (word, after) →
      Statement.Runs callees scope (.letVariable target value) before
        .completed (scope.assign target word after)
  | letElement {array : String} {index value : Expression}
      {before between after : Store} {offset word : Word} :
      index.evaluate callees scope before = (offset, between) →
      value.evaluate callees scope between = (word, after) →
      Statement.Runs callees scope (.letElement array index value) before
        .completed
        (after.writeHeap (scope.value array before + offset) word)
  | ifThen {condition : Expression} {body : Statements}
      {before between after : Store} {ending : Ending} :
      condition.evaluate callees scope before = (Word.yes, between) →
      Statements.Runs callees scope body between ending after →
      Statement.Runs callees scope (.ifThen condition body) before ending
        after
  | ifSkip {condition : Expression} {body : Statements}
      {before after : Store} {word : Word} :
      condition.evaluate callees scope before = (word, after) →
      word ≠ Word.yes →
      Statement.Runs callees scope (.ifThen condition body) before .completed
        after
  | ifElseThen {condition : Expression} {body otherwise : Statements}
      {before between after : Store} {ending : Ending} :
      condition.evaluate callees scope before = (Word.yes, between) →
      Statements.Runs callees scope body between ending after →
      Statement.Runs callees scope (.ifElse condition body otherwise) before
        ending after
  | ifElseOtherwise {condition : Expression} {body otherwise : Statements}
      {before between after : Store} {word : Word} {ending : Ending} :
      condition.evaluate callees scope before = (word, between) →
      word ≠ Word.yes →
      Statements.Runs callees scope otherwise between ending after →
      Statement.Runs callees scope (.ifElse condition body otherwise) before
        ending after
  | whileDone {condition : Expression} {body : Statements}
      {before after : Store} {word : Word} :
      condition.evaluate callees scope before = (word, after) →
      word ≠ Word.yes →
      Statement.Runs callees scope (.whileLoop condition body) before
        .completed after
  | whileAgain {condition : Expression} {body : Statements}
      {before between behind after : Store} {ending : Ending} :
      condition.evaluate callees scope before = (Word.yes, between) →
      Statements.Runs callees scope body between .completed behind →
      Statement.Runs callees scope (.whileLoop condition body) behind ending
        after →
      Statement.Runs callees scope (.whileLoop condition body) before ending
        after
  | whileReturn {condition : Expression} {body : Statements}
      {before between after : Store} {result : Word} :
      condition.evaluate callees scope before = (Word.yes, between) →
      Statements.Runs callees scope body between (.returned result) after →
      Statement.Runs callees scope (.whileLoop condition body) before
        (.returned result) after
  | doCall {target : SubroutineCall} {before after : Store} {word : Word} :
      target.evaluate callees scope before = (word, after) →
      Statement.Runs callees scope (.doCall target) before .completed after
  | returnNothing {store : Store} :
      Statement.Runs callees scope .returnNothing store (.returned 0) store
  | returnValue {value : Expression} {before after : Store} {word : Word} :
      value.evaluate callees scope before = (word, after) →
      Statement.Runs callees scope (.returnValue value) before
        (.returned word) after

inductive Statements.Runs (callees : Callees) (scope : Scope) :
    Statements → Store → Ending → Store → Prop where
  | nil {store : Store} :
      Statements.Runs callees scope .nil store .completed store
  | cons {first : Statement} {others : Statements}
      {before between after : Store} {ending : Ending} :
      Statement.Runs callees scope first before .completed between →
      Statements.Runs callees scope others between ending after →
      Statements.Runs callees scope (.cons first others) before ending after
  | consReturn {first : Statement} {others : Statements}
      {before after : Store} {result : Word} :
      Statement.Runs callees scope first before (.returned result) after →
      Statements.Runs callees scope (.cons first others) before
        (.returned result) after

end

/-! ## Subroutines -/

/-- The store in which the body of a subroutine begins: the local variables
are zero, a constructor has made a new object, and a method has taken its
object from the first argument. -/
def SubroutineKind.begin (callees : Callees) (kind : SubroutineKind)
    (locals fields : Nat) (store : Store) : Store :=
  let store := store.clearLocals locals
  match kind with
  | .function => store
  | .method => { store with this := store.arguments 0 }
  | .constructor =>
      let (object, store) :=
        store.call callees Fragment.memoryAlloc [BitVec.ofNat 16 fields]
      { store with this := object }

/-- A subroutine, begun in one store, ends in another one. -/
def SubroutineDeclaration.Runs (callees : Callees) (scope : Scope)
    (subroutine : SubroutineDeclaration) (before : Store) (ending : Ending)
    (after : Store) : Prop :=
  subroutine.body.Runs callees scope
    (subroutine.kind.begin callees (scope.subroutineTable.count .local)
      (scope.classTable.count .field) before) ending after

end JackToVm
