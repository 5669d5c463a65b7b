import SimpleQuery.Stream.Send

/-!
# Query frames

A query travels as a tag byte, the text of the statement, and a zero byte.

* `Query.statements?_frame_append` — a backend takes a query apart as its statement, if the statement
  has no zero byte.

Model of `send_query`, and of how a backend splits what it is sent.
-/

set_option autoImplicit false

namespace SimpleQuery

namespace Query

/-- The byte that a query begins with: the letter `Q`. -/
def tag : UInt8 := 0x51

/-- The bytes of a query for a statement. -/
def frame (statement : Bytes) : Bytes := tag :: statement ++ [0]

/-- The empty statement. The backend only acknowledges it. -/
def blank : String := " "

/-- The bytes of the empty statement as a flush query has them, whatever the charset. The four charsets
spell it so. -/
def blankBytes : Bytes := [0x20]

mutual

/-- The statements of whole queries, one behind the other, as a backend takes them apart; none where
the bytes are anything else. -/
def statements? : Bytes → Option (List Bytes)
  | [] => some []
  | b :: rest => if b = tag then statementFrom? [] rest else none

/-- The same behind the beginning of a statement, which is kept in reverse. -/
def statementFrom? (begun : Bytes) : Bytes → Option (List Bytes)
  | [] => none
  | b :: rest =>
    if b = 0 then (statements? rest).map (begun.reverse :: ·) else statementFrom? (b :: begun) rest

end

theorem statementFrom?_append {begun text : Bytes} (rest : Bytes) (h : 0 ∉ text) :
    statementFrom? begun (text ++ 0 :: rest) =
      (statements? rest).map ((begun.reverse ++ text) :: ·) := by
  induction text generalizing begun with
  | nil => simp [statementFrom?]
  | cons b t ih =>
    simp only [List.mem_cons, not_or] at h
    rw [List.cons_append, statementFrom?, if_neg (Ne.symm h.1), ih h.2]
    simp

/-- A query is taken apart as its statement, if that has no zero byte. -/
theorem statements?_frame_append {text : Bytes} (rest : Bytes) (h : 0 ∉ text) :
    statements? (frame text ++ rest) = (statements? rest).map (text :: ·) := by
  simp only [frame, List.cons_append, List.append_assoc, List.nil_append, statements?, if_true]
  rw [statementFrom?_append rest h]
  simp

/-- Queries one behind the other are taken apart as their statements. -/
theorem statements?_frames {texts : List Bytes} (h : ∀ text ∈ texts, 0 ∉ text) :
    statements? (texts.map frame).flatten = some texts := by
  induction texts with
  | nil => simp [statements?]
  | cons text texts ih =>
    rw [List.map_cons, List.flatten_cons, statements?_frame_append _ (h text List.mem_cons_self),
      ih fun t ht => h t (List.mem_cons_of_mem _ ht)]
    rfl

end Query

/-- Sends a query for a statement. -/
def Stream.sendQuery (statement : Bytes) : Act Stream Unit := do
  Stream.stage (Query.frame statement)
  Stream.flush

theorem Stream.spends_sendQuery (statement : Bytes) : Spends (sendQuery statement) :=
  Spends.bind (spends_stage _) fun _ => spends_flush

end SimpleQuery
