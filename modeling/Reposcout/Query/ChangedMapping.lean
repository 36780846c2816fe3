import Mathlib.Data.Nat.Notation
import Reposcout.Model.Machine

/-!
# Lines on the two sides of a diff

A line outside of the hunks of a diff is translated to the other side.
-/

namespace Reposcout.Query

/-- The line ranges of a change. An empty range starts after a number of lines. -/
structure ChangeHunk where
  oldStart : ℕ
  oldLines : ℕ
  newStart : ℕ
  newLines : ℕ

namespace ChangeHunk

def flip (hunk : ChangeHunk) : ChangeHunk :=
  ⟨hunk.newStart, hunk.newLines, hunk.oldStart, hunk.oldLines⟩

def orient (oldSide : Bool) (hunk : ChangeHunk) : ChangeHunk := if oldSide then hunk else hunk.flip

end ChangeHunk

/-- The end of `unchanged_line`, for a line behind the last hunk before it. -/
def shiftLine (line sourceEnd targetEnd : ℕ) : Option ℕ :=
  (checkedSub line sourceEnd).bind fun distance =>
    (checkedAdd distance targetEnd).bind fun shifted => checkedAdd shifted 1

/-- The loop of `unchanged_line`, for a zero-based line. -/
def unchangedFrom (oldSide : Bool) (line : ℕ) : ℕ → ℕ → List ChangeHunk → Option ℕ
  | sourceEnd, targetEnd, [] => shiftLine line sourceEnd targetEnd
  | sourceEnd, targetEnd, hunk :: hunks =>
    let side := hunk.orient oldSide
    (checkedSub side.oldStart (if side.oldLines > 0 then 1 else 0)).bind fun start =>
      (checkedSub side.newStart (if side.newLines > 0 then 1 else 0)).bind fun otherStart =>
        if line < start then shiftLine line sourceEnd targetEnd
        else
          (checkedAdd start side.oldLines).bind fun sourceEnd =>
            if line < sourceEnd then none
            else
              (checkedAdd otherStart side.newLines).bind fun targetEnd =>
                unchangedFrom oldSide line sourceEnd targetEnd hunks

/-- `unchanged_line`. -/
def unchangedLine (line : ℕ) (hunks : List ChangeHunk) (oldSide : Bool) : Option ℕ :=
  (checkedSub line 1).bind fun line => unchangedFrom oldSide line 0 0 hunks

end Reposcout.Query
