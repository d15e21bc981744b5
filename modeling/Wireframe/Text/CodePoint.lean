/-!
# Tables of code points

A property of characters is an ascending table of ranges of code points (`inRanges`), a map between
characters an ascending table of runs (`mapByRuns`). Both searches go through the table in order and
stop at the first entry that starts above the character, so the characters of the common scripts,
which come first, are found fast.
-/

namespace Wireframe.Text

/-- The code points from `first` to `last`, both included. -/
structure CodeRange where
  first : Nat
  last : Nat

/-- Whether a code point lies in one of the ranges of an ascending table. -/
def inRanges : List CodeRange → Nat → Bool
  | [], _ => false
  | range :: rest, n =>
    if n < range.first then false else decide (n ≤ range.last) || inRanges rest n

/-- The code points `first`, `first + step`, … up to `last`, mapped in this order to `onto`,
    `onto + step`, … -/
structure CodeRun where
  first : Nat
  last : Nat
  step : Nat
  onto : Nat

/-- The image of a code point under an ascending table of runs that do not overlap; a code point
    outside of all runs is its own image. -/
def shiftByRuns : List CodeRun → Nat → Nat
  | [], n => n
  | run :: rest, n =>
    if n < run.first then n
    else if n ≤ run.last then
      if (n - run.first) % run.step = 0 then run.onto + (n - run.first) else n
    else shiftByRuns rest n

/-- The image of a character under a table of runs. -/
def mapByRuns (runs : List CodeRun) (c : Char) : Char :=
  Char.ofNat (shiftByRuns runs c.toNat)

end Wireframe.Text
