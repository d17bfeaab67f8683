import JackToVm.SymbolTable.Printout

/-!
# Insertions into a symbol table

A row of insertions, each of which a table takes or refuses, and what a table
has to be like behind them: it holds the variables that it took and nothing
else, and a name that it refused leaves no trace.
-/

namespace JackToVm.SymbolTable

/-- A name that is to be declared. -/
structure Insertion where
  name : String
  type : String
  kind : VariableKind
deriving DecidableEq, Repr

/-- What a table answers to an insertion: the number of the variable, or why it
is refused. -/
def answer (table : SymbolTable) (asked : Insertion) :
    Except CompileError Nat :=
  (table.insert asked.name asked.type asked.kind).1

/-- The table behind an insertion, whether it is refused or not. -/
def behind (table : SymbolTable) (asked : Insertion) : SymbolTable :=
  (table.insert asked.name asked.type asked.kind).2

/-- Some insertions, each with the answer of the table behind those before
it. -/
def answers (table : SymbolTable) :
    List Insertion → List (Insertion × Except CompileError Nat)
  | [] => []
  | asked :: others =>
      (asked, table.answer asked) :: (table.behind asked).answers others

/-- The table behind some insertions. -/
def behindAll (table : SymbolTable) (insertions : List Insertion) :
    SymbolTable :=
  insertions.foldl behind table

/-- The name and the variable that an insertion puts into a table: none if it
is refused. -/
def entry? :
    Insertion × Except CompileError Nat → Option (String × Variable)
  | (asked, .ok index) => some (asked.name, ⟨asked.type, asked.kind, index⟩)
  | (_, .error _) => none

/-- The variables that a table took among some insertions, in order. -/
def taken (answered : List (Insertion × Except CompileError Nat)) :
    List (String × Variable) :=
  answered.filterMap entry?

/-- A table holds some variables, in the order of their insertion, and nothing
else. -/
structure Holds (table : SymbolTable) (stored : List (String × Variable)) :
    Prop where
  entries_eq : table.entries.toList = stored
  count_eq : ∀ kind,
    table.count kind = stored.countP (·.2.kind = kind)
  count_le : ∀ kind, table.count kind ≤ Counter.limit
  indices_eq : ∀ kind,
    (stored.filter (·.2.kind = kind)).map (·.2.index) =
      List.range (table.count kind)
  /-- A name is found as the one variable that was stored under it. -/
  lookup?_eq : ∀ name,
    (table.lookup? name).toList =
      (stored.filter (·.1 = name)).map Prod.snd

/-- Nothing tells two tables apart: neither their counts, nor a name, nor the
printout, nor whatever is inserted into both of them. -/
structure Same (first second : SymbolTable) : Prop where
  count_eq : ∀ kind, first.count kind = second.count kind
  lookup?_eq : ∀ name, first.lookup? name = second.lookup? name
  printout_eq : first.printout = second.printout
  answers_eq : ∀ later, first.answers later = second.answers later
  printout_behindAll_eq : ∀ later,
    (first.behindAll later).printout = (second.behindAll later).printout

/-- A table answers an insertion by its name and its kind alone, and one that it
refuses changes nothing. -/
structure AnswersTo (table : SymbolTable) (asked : Insertion) : Prop where
  redeclared_iff : ∀ name kind,
    table.answer asked = .error (.redeclared name kind) ↔
      name = asked.name ∧
        ∃ stored, table.lookup? asked.name = some stored ∧
          stored.kind = kind
  limit_iff : ∀ exceeded,
    table.answer asked = .error (.limit exceeded) ↔
      table.lookup? asked.name = none ∧
        table.count asked.kind = Counter.limit ∧
        exceeded = .variableCount asked.kind
  ok_iff : ∀ index,
    table.answer asked = .ok index ↔
      table.lookup? asked.name = none ∧
        table.count asked.kind ≠ Counter.limit ∧
        index = table.count asked.kind
  same_of_refused : ∀ cause, table.answer asked = .error cause →
    (table.behind asked).Same table

end JackToVm.SymbolTable
