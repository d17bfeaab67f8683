import Std.Data.HashMap
import JackToVm.Error

/-!
# Symbol tables

The variables of one scope in the order of their declaration. A table is a
list of entries; `lookup?` answers from a hash table that the type keeps equal
to a search in that list. Variables are numbered per kind, from zero in the
order of declaration.
-/

namespace JackToVm

/-! ## How many variables of each kind -/

/-- A counter for each kind of variable. -/
structure KindCounters where
  statics : Counter := Counter.zero
  fields : Counter := Counter.zero
  arguments : Counter := Counter.zero
  locals : Counter := Counter.zero
deriving DecidableEq, Repr

namespace KindCounters

def get (counters : KindCounters) : VariableKind → Counter
  | .static => counters.statics
  | .field => counters.fields
  | .argument => counters.arguments
  | .local => counters.locals

def set (counters : KindCounters) : VariableKind → Counter → KindCounters
  | .static, counter => { counters with statics := counter }
  | .field, counter => { counters with fields := counter }
  | .argument, counter => { counters with arguments := counter }
  | .local, counter => { counters with locals := counter }

@[simp]
theorem get_set (counters : KindCounters) (changed asked : VariableKind)
    (counter : Counter) :
    (counters.set changed counter).get asked =
      if changed = asked then counter else counters.get asked := by
  cases changed <;> cases asked <;> rfl

end KindCounters

/-! ## The table -/

/-- The variables of one scope. -/
structure SymbolTable where
  /-- The declared names and their variables, in the order of declaration. -/
  entries : Array (String × Variable)
  /-- The same entries by name. -/
  byName : Std.HashMap String Variable
  /-- How many variables of each kind there are. -/
  counters : KindCounters
  /-- A look-up by name finds the entry that a search would find. -/
  byName_eq : ∀ name,
    byName[name]? = (entries.find? (·.1 == name)).map Prod.snd

namespace SymbolTable

def empty : SymbolTable where
  entries := #[]
  byName := ∅
  counters := {}
  byName_eq := by simp

/-- The variable declared under a name. -/
def lookup? (table : SymbolTable) (name : String) : Option Variable :=
  table.byName[name]?

/-- The number of variables of a kind. -/
def count (table : SymbolTable) (kind : VariableKind) : Nat :=
  (table.counters.get kind).value

theorem lookup?_eq_find? (table : SymbolTable) (name : String) :
    table.lookup? name =
      (table.entries.find? (·.1 == name)).map Prod.snd :=
  table.byName_eq name

@[simp]
theorem lookup?_empty (name : String) : empty.lookup? name = none := by
  simp [lookup?, empty]

private theorem byName_push {entries : Array (String × Variable)}
    {byName : Std.HashMap String Variable} {name : String}
    (agree : ∀ asked,
      byName[asked]? = (entries.find? (·.1 == asked)).map Prod.snd)
    (fresh : byName[name]? = none) (declared : Variable) (asked : String) :
    (byName.insert name declared)[asked]? =
      ((entries.push (name, declared)).find? (·.1 == asked)).map Prod.snd := by
  rw [Std.HashMap.getElem?_insert, Array.find?_push]
  by_cases same : name = asked
  · subst same
    have absent : entries.find? (·.1 == name) = none := by
      rw [agree name] at fresh
      simpa only [Option.map_eq_none_iff] using fresh
    simp [absent]
  · simp [same, agree asked]

def push (table : SymbolTable) (name : String) (declared : Variable)
    (counters : KindCounters) (fresh : table.lookup? name = none) :
    SymbolTable where
  entries := table.entries.push (name, declared)
  byName := table.byName.insert name declared
  counters := counters
  byName_eq := byName_push table.byName_eq fresh declared

/-- Declares a name: it takes the next number of its kind. A name that is
already declared, with whatever kind, is refused; so is a variable of a kind
whose numbers are used up. A refusal leaves the table as it is. -/
def insert (table : SymbolTable) (name type : String) (kind : VariableKind) :
    Except CompileError Nat × SymbolTable :=
  match present : table.lookup? name with
  | some existing => (.error (.redeclared name existing.kind), table)
  | none =>
      match (table.counters.get kind).take? with
      | none => (.error (.limit (.variableCount kind)), table)
      | some (index, counter) =>
          (.ok index, table.push name ⟨type, kind, index⟩
            (table.counters.set kind counter) present)

end SymbolTable

end JackToVm
