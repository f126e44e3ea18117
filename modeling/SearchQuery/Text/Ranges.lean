set_option autoImplicit false

/-!
# Ranges of code points

A class of characters is given by closed ranges of code points that ascend and lie apart.
-/

namespace SearchQuery.Text

/-- Whether the code point of a character is in one of some closed ranges. -/
def inRanges (ranges : List (Nat × Nat)) (character : Char) : Bool :=
  ranges.any fun range => range.1 ≤ character.toNat && character.toNat ≤ range.2

/-- Whether ranges ascend and lie apart, so that no code point is counted twice. -/
def rangesAscend : List (Nat × Nat) → Bool
  | [] => true
  | [range] => range.1 ≤ range.2
  | range :: next :: rest =>
      range.1 ≤ range.2 && range.2 + 1 < next.1 && rangesAscend (next :: rest)

/-- The number of code points in ranges that lie apart. -/
def rangesSize : List (Nat × Nat) → Nat
  | [] => 0
  | range :: rest => range.2 + 1 - range.1 + rangesSize rest

/-- A character is in some ranges exactly if it is between the ends of one of them. -/
theorem inRanges_iff {ranges : List (Nat × Nat)} {character : Char} :
    inRanges ranges character = true ↔
      ∃ range ∈ ranges, range.1 ≤ character.toNat ∧ character.toNat ≤ range.2 := by
  simp [inRanges]

end SearchQuery.Text
