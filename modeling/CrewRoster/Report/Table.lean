import CrewRoster.Report.Column
import CrewRoster.Text.Csv

/-!
Tables: columns of values under their names, and their text.
-/

namespace CrewRoster

/-- Rows of `width` elements as columns, or columns as rows. -/
def transpose {α : Type} (width : Nat) (rows : List (List α)) : List (List α) :=
  rows.foldr (List.zipWith (· :: ·)) (List.replicate width [])

structure Table where
  names : List String
  /-- One for each name, all of the same length. -/
  columns : List (List TableValue)

namespace Table

/-- A table of rows, each column brought into one form. -/
def ofRows (names : List String) (rows : List (List TableValue)) : Result Table := do
  return ⟨names, ← (transpose names.length rows).mapM Column.settle⟩

def height (t : Table) : Nat := (t.columns.head?.map (·.length)).getD 0

def rows (t : Table) : List (List TableValue) := transpose t.height t.columns

def csv (t : Table) : String :=
  if t.names.isEmpty then "\n"
  else Text.csv (t.names :: transpose t.height (t.columns.map Column.texts))

end Table
end CrewRoster
