/-!
Properties of characters, given as tables of code point ranges. The tables of this folder list
their ranges in ascending order, so that a search may stop at the first range that begins above the
character sought.
-/

namespace BuildPanel.Text

/-- The code points that have a property, as closed ranges in ascending order. -/
abbrev CodeRanges := List (Nat × Nat)

def CodeRanges.has : CodeRanges → Nat → Bool
  | [], _ => false
  | (first, last) :: rest, c => if c < first then false else c ≤ last || has rest c

end BuildPanel.Text
