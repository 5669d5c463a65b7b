import SimpleQuery.Word

/-!
# Results

What a query gives back: the columns of a row group, its rows, and the status the backend reported.

Model of `FieldDescriptor`, `Row` and `ResultBundle`.
-/

set_option autoImplicit false

namespace SimpleQuery

/-- A column of a row group. -/
structure Column where
  name : String
  typeOid : Nat
  typeLength : Nat
  deriving DecidableEq, Repr

/-- A row: one payload for each column, or none for a null. -/
abbrev Row := List (Option Bytes)

/-- The outcome of one query. A statement without rows has no columns, and the status is the last one
that was reported. -/
structure Bundle where
  columns : List Column := []
  rows : Array Row := #[]
  status : Option String := none
  deriving DecidableEq, Repr

namespace Bundle

/-- A query gives one row group, which is the first. -/
def groupIndex (_ : Bundle) : Nat := 1

def columnNames (bundle : Bundle) : List String := bundle.columns.map (·.name)

def rowCount (bundle : Bundle) : Nat := bundle.rows.size

/-- Whether the statement was one that gives rows. -/
def hasRows (bundle : Bundle) : Bool := !bundle.columns.isEmpty

end Bundle

end SimpleQuery
