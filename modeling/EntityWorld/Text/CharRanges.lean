namespace EntityWorld.Text

/-- Ranges of code points, both ends included, in ascending order and apart. -/
abbrev CharRanges := List (Nat × Nat)

/-- Whether a code point lies in one of the ranges. The search ends at the
    first range beyond the code point. -/
def CharRanges.contains : CharRanges → Nat → Bool
  | [], _ => false
  | (first, last) :: ranges, code =>
    first ≤ code && (code ≤ last || CharRanges.contains ranges code)

end EntityWorld.Text
