import JackToVm.SymbolTable
import JackToVm.Text

/-!
# Printing a symbol table

One row per variable below a header and a rule. A column is as wide as its
widest cell, and no row ends in blanks.
-/

namespace JackToVm.SymbolTable

def headerCells : List String :=
  ["name", "type", "kind", "#"]

/-- The cells of the row of a variable. -/
def rowCells (entry : String × Variable) : List String :=
  [entry.1, entry.2.type, entry.2.kind.word, toString entry.2.index]

/-- The widths needed for a row below rows of the given widths. -/
def widen (widths : List Nat) (cells : List String) : List Nat :=
  widths.zipWith (fun width cell => max width cell.length) cells

/-- One line of the printout: the cells filled up to the widths of their
columns, without blanks at the end. -/
def rowLine (widths : List Nat) (cells : List String) : String :=
  Text.trimEnd (" │ ".intercalate (cells.zipWith (fun cell width =>
    Text.padRight width cell) widths))

def ruleLine (widths : List Nat) : String :=
  "─┼─".intercalate (widths.map fun width =>
    String.ofList (List.replicate width '─'))

def lines (table : SymbolTable) : List String :=
  let rows := table.entries.toList.map rowCells
  let widths := rows.foldl widen (headerCells.map String.length)
  rowLine widths headerCells :: ruleLine widths :: rows.map (rowLine widths)

/-- The printout: its lines, without a line break at the end. -/
def printout (table : SymbolTable) : String :=
  "\n".intercalate table.lines

end JackToVm.SymbolTable
