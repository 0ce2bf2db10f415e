import GraphMapper.NamedList
import GraphMapper.Value

/-!
# Rows

One record of a query's result: columns in their order, each with a value. A column may occur more
than once; then the first one is meant.
-/

namespace GraphMapper

/-- The columns of one record. -/
structure Row where
  columns : List (String × Value)

namespace Row

/-- The value of the first column of that name. -/
def get? (row : Row) (name : String) : Option Value :=
  KeyedList.get? row.columns name

/-- The row with the value in the first column of that name, or in a new one at its end. -/
def set (row : Row) (name : String) (value : Value) : Row :=
  ⟨NamedList.put Prod.fst (name, value) row.columns⟩

/-- Removes the first column of that name from `columns`. -/
def dropColumn (name : String) : List (String × Value) → List (String × Value)
  | [] => []
  | (n, v) :: rest => if n = name then rest else (n, v) :: dropColumn name rest

/-- The value of the first column of that name, and the row without that column. -/
def take (row : Row) (name : String) : Option Value × Row :=
  (row.get? name, ⟨dropColumn name row.columns⟩)

/-- The names of the columns. -/
def names (row : Row) : List String :=
  row.columns.map (·.1)

/-- What was set is found under its name, and every other name finds what it did. -/
theorem get?_set (row : Row) (name other : String) (value : Value) :
    (row.set name value).get? other = if name = other then some value else row.get? other := by
  obtain ⟨columns⟩ := row
  simp only [set, get?]
  induction columns with
  | nil => simp [NamedList.put, KeyedList.get?]
  | cons column rest ih => grind [NamedList.put, KeyedList.get?]

end Row

end GraphMapper
