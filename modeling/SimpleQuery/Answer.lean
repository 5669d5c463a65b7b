import SimpleQuery.Bundle

/-!
# Answers

What a command on a stream or on a session gives when it succeeds.

Model of what the methods of `PGStream` and `PGSession` return.
-/

set_option autoImplicit false

namespace SimpleQuery

/-- The value of a command that succeeds. -/
inductive Answer where
  | done
  | number (value : Nat)
  | flag (value : Bool)
  | text (value : String)
  | bytes (value : Bytes)
  | columns (value : List Column)
  | row (value : Row)
  | bundle (value : Bundle)
  deriving DecidableEq, Repr

namespace Answer

def ofText? : Option String → Answer
  | some value => .text value
  | none => .done

end Answer

end SimpleQuery
