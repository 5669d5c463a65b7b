import SimpleQuery.Bundle
import SimpleQuery.Text.Transcode

/-!
# Results as text

A result is reported line by line: the column names and then each row, with tabs between the columns,
and the status at the end.

Model of `decoded_rows` and `format_result`.
-/

set_option autoImplicit false

namespace SimpleQuery.Bundle

/-- The rows with each payload read as text. -/
def textRows (charset : NamedCharset) (bundle : Bundle) : Except Fault (List (List (Option String))) :=
  bundle.rows.toList.mapM fun row => row.mapM fun slot =>
    match slot with
    | none => .ok none
    | some payload => some <$> Text.decodeIn charset payload

/-- The word that stands for a null. -/
def nullWord : String := "NULL"

/-- A line of a table. -/
def tabbed (cells : List String) : String := "\t".intercalate cells

/-- The lines of the row group; a statement without rows has none. -/
def tableLines (charset : NamedCharset) (bundle : Bundle) : Except Fault (List String) :=
  if bundle.hasRows then do
    let rows ← bundle.textRows charset
    return tabbed bundle.columnNames :: rows.map fun row => tabbed (row.map (·.getD nullWord))
  else .ok []

/-- The line of the status; an empty one is left out. -/
def statusLines (bundle : Bundle) : List String :=
  match bundle.status with
  | none => []
  | some status => if status = "" then [] else [status]

/-- The lines of a result. -/
def lines (charset : NamedCharset) (bundle : Bundle) : Except Fault (List String) := do
  return (← bundle.tableLines charset) ++ bundle.statusLines

end SimpleQuery.Bundle
