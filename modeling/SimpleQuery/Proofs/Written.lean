import Mathlib.Data.List.Basic
import SimpleQuery.Report

/-!
# The lines of a result

In one of the four charsets every result has its lines: the names of its columns, one line for each row,
with a word for each null, and the status. A statement without rows has only its status.

The cells of a line can be read off it again, unless a tab is in one of them.

* `Bundle.lines_known` — which lines these are.
* `Bundle.splitOn_written` — what is read off them.
-/

set_option autoImplicit false

namespace SimpleQuery.Bundle

variable {cs : Charset} {bundle : Bundle}

/-- What stands in a line for a payload, or for none. -/
def cell (cs : Charset) : Option Bytes → String
  | none => nullWord
  | some payload => cs.decode payload

/-- The lines of a result with columns, but for its status. -/
def table (cs : Charset) (bundle : Bundle) : List (List String) :=
  bundle.columnNames :: bundle.rows.toList.map fun row => row.map (cell cs)

/-- The lines of a result. -/
def written (cs : Charset) (bundle : Bundle) : List String :=
  (if bundle.hasRows then (bundle.table cs).map tabbed else []) ++ bundle.statusLines

theorem mapM_of_ok {ε α β : Type} {f : α → Except ε β} {g : α → β} (h : ∀ a, f a = .ok (g a)) (l : List α) :
    l.mapM f = .ok (l.map g) := by
  induction l with
  | nil => rfl
  | cons a l ih =>
    rw [List.mapM_cons, h, ih]
    rfl

theorem textRows_known (cs : Charset) (bundle : Bundle) :
    bundle.textRows (.known cs) = .ok (bundle.rows.toList.map fun row => row.map (Option.map cs.decode)) := by
  refine mapM_of_ok (fun row => mapM_of_ok (fun slot => ?_) row) _
  cases slot <;> rfl

/-- **In one of the four charsets every result has its lines.** -/
theorem lines_known (cs : Charset) (bundle : Bundle) : bundle.lines (.known cs) = .ok (bundle.written cs) := by
  have shown (row : Row) : (row.map (Option.map cs.decode)).map (·.getD nullWord) = row.map (cell cs) := by
    rw [List.map_map]
    refine List.map_congr_left fun slot _ => ?_
    cases slot <;> rfl
  unfold lines tableLines written
  split
  · rw [textRows_known]
    refine congrArg (fun rows => Except.ok (tabbed bundle.columnNames :: rows ++ bundle.statusLines)) ?_
    rw [List.map_map, List.map_map]
    exact List.map_congr_left fun row _ => congrArg tabbed (shown row)
  · rfl

/-- The cells of a line without tabs in them are read off it again. -/
theorem splitOn_tabbed {cells : List String} (some : cells ≠ [])
    (plain : ∀ text ∈ cells, '\t' ∉ text.toList) :
    (tabbed cells).toList.splitOn '\t' = cells.map String.toList := by
  rw [tabbed, String.toList_intercalate]
  refine List.splitOn_intercalate '\t' (fun text member => ?_) (by simpa using some)
  obtain ⟨cell, among, rfl⟩ := List.mem_map.1 member
  exact plain cell among

/-- **What is read off the lines of a result.** The first line has the names, each of the next the cells of a
row, and the last is the status. -/
theorem splitOn_written (columns : bundle.columns ≠ [])
    (rectangular : ∀ row ∈ bundle.rows.toList, row.length = bundle.columns.length)
    (plain : ∀ line ∈ bundle.table cs, ∀ text ∈ line, '\t' ∉ text.toList) :
    ∃ lines, bundle.lines (.known cs) = .ok (lines ++ bundle.statusLines) ∧
      lines.map (·.toList.splitOn '\t') = (bundle.table cs).map (·.map String.toList) := by
  have hasRows : bundle.hasRows = true := by simpa [hasRows] using columns
  refine ⟨(bundle.table cs).map tabbed, ?_, ?_⟩
  · rw [lines_known, written, if_pos hasRows]
  · rw [List.map_map]
    refine List.map_congr_left fun line member => splitOn_tabbed ?_ (plain line member)
    rcases List.mem_cons.1 member with rfl | among
    · simpa [columnNames] using columns
    · obtain ⟨row, here, rfl⟩ := List.mem_map.1 among
      intro none
      have empty := rectangular row here
      rw [List.map_eq_nil_iff.1 none] at empty
      exact columns (List.eq_nil_of_length_eq_zero empty.symm)

/-- Two columns and a null. -/
example : written .utf8
    { columns := [⟨"a", 23, 4⟩, ⟨"b", 23, 4⟩], rows := #[[some [0x31], none]], status := some "S" } =
      ["a\tb", "1\tNULL", "S"] := by decide +kernel

end SimpleQuery.Bundle
