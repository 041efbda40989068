import FilterList.Mark

/-!
# Layout of marks on lines

`Layout.print` writes marks so that each stands on a given line: newlines down
to the line, the spelling, a space. The space keeps two marks on one line from
being read as one; the newlines at the end lead to the last line.

Results:
* `count_newlines`: the newlines lead from one line to the other.
-/
namespace FilterList

/-- Marks with the lines they stand on, and the line the text ends on. -/
structure Layout where
  entries : List (Mark × UInt32)
  last : UInt32
  deriving DecidableEq, Repr

namespace Layout

/-- The newlines that lead from line `here` to line `there`. -/
def newlines (here there : UInt32) : List Char :=
  List.replicate (there.toNat - here.toNat) '\n'

/-- Writes the entries from line `here` on, and the way to the last line. -/
def printFrom (here last : UInt32) : List (Mark × UInt32) → List Char
  | [] => newlines here last
  | (m, line) :: entries => newlines here line ++ m.spelling ++ [' '] ++ printFrom line last entries

/-- The text of a layout. -/
def print (layout : Layout) : String :=
  String.ofList (printFrom 1 layout.last layout.entries)

/-- The lines of the entries do not go back, from `here` to `last`. -/
def Ascending (here last : UInt32) : List (Mark × UInt32) → Prop
  | [] => here ≤ last
  | (_, line) :: entries => here ≤ line ∧ Ascending line last entries

/-- A layout whose lines start at 1 and do not go back can be printed. -/
def WellFormed (layout : Layout) : Prop :=
  Ascending 1 layout.last layout.entries

theorem count_newlines (here there : UInt32) :
    (newlines here there).count '\n' = there.toNat - here.toNat := by
  simp [newlines]

end Layout

end FilterList
