import JackToVm.Variable

/-!
# Stores

What a running subroutine can read and write: words of 16 bits in its
arguments and local variables, the static variables of its class, and a heap
that words address. The fields of the current object lie in the heap from the
address `this` on. What a subroutine calls is any function that maps its
arguments to a result and may change the static variables and the heap, and
the temporary cells of the machine.
-/

namespace JackToVm

/-- A word of the target machine. -/
abbrev Word := BitVec 16

namespace Word

/-- The word for a condition that holds: all bits are set. -/
def yes : Word := BitVec.allOnes 16

def no : Word := 0

def ofCondition (holds : Bool) : Word :=
  if holds then yes else no

end Word

/-- A function with the value at one place replaced. -/
def replaceAt {α β : Type} [DecidableEq α] (values : α → β) (place : α)
    (value : β) : α → β :=
  fun asked => if asked = place then value else values asked

/-- What outlives a subroutine. -/
structure Shared where
  statics : Nat → Word
  heap : Word → Word

/-- What a running subroutine can read and write. -/
structure Store extends Shared where
  locals : Nat → Word
  arguments : Nat → Word
  /-- The address of the current object. -/
  this : Word

/-- The subroutines that can be called. What a call does depends on the name,
the arguments, and what outlives a subroutine. -/
structure Callees where
  /-- The result of a call, and what is there behind it. -/
  answer : String → List Word → Shared → Word × Shared
  /-- The temporary cells behind a call, which need not restore them. -/
  temps : String → List Word → Shared → (Nat → Word) → Nat → Word

namespace Store

def read (store : Store) (cell : Variable) : Word :=
  match cell.kind with
  | .static => store.statics cell.index
  | .field => store.heap (store.this + BitVec.ofNat 16 cell.index)
  | .argument => store.arguments cell.index
  | .local => store.locals cell.index

/-- The store with another word in the heap. -/
def writeHeap (store : Store) (address value : Word) : Store :=
  { store with heap := replaceAt store.heap address value }

def write (store : Store) (cell : Variable) (value : Word) : Store :=
  match cell.kind with
  | .static =>
      { store with statics := replaceAt store.statics cell.index value }
  | .field =>
      store.writeHeap (store.this + BitVec.ofNat 16 cell.index) value
  | .argument =>
      { store with arguments := replaceAt store.arguments cell.index value }
  | .local =>
      { store with locals := replaceAt store.locals cell.index value }

/-- The store with the first `count` local variables set to zero. -/
def clearLocals (store : Store) (count : Nat) : Store :=
  { store with
    locals := fun index => if index < count then 0 else store.locals index }

/-- Calls a subroutine; the arguments, local variables and current object of
the caller stay as they are. -/
def call (callees : Callees) (name : String) (values : List Word)
    (store : Store) : Word × Store :=
  let (result, shared) := callees.answer name values store.toShared
  (result, { store with toShared := shared })

end Store

/-- How the body of a subroutine ends. -/
inductive Ending where
  /-- It goes on behind its last statement. -/
  | completed
  /-- A `return` statement ends it with a result. -/
  | returned (result : Word)
deriving DecidableEq, Repr

end JackToVm
