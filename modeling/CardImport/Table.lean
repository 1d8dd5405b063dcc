import CardImport.Failure

/-!
# Tables

A table has a title and named columns, and its cells are texts. Of other values only null can stand
in a cell, which is then empty: a row with any other value is refused.
-/

namespace CardImport

/-- A table with a title and named columns. -/
structure Table where
  title : String
  columns : List String
  rows : List (List String)

namespace Table

def cell : Json → Except Failure String
  | .str text => .ok text
  | .null => .ok ""
  | value => .error (.notShowable value)

def row (values : List Json) : Except Failure (List String) := values.mapM cell

/-- The texts of a table that set styles: column by column, and last the title. The names of the
columns set none. -/
def markup (t : Table) : List String :=
  (List.range t.columns.length).flatMap (fun i => t.rows.filterMap (·[i]?)) ++ [t.title]

def mark (text : String) (chosen : Bool) : Json := .str (if chosen then text else "")

end Table

end CardImport
