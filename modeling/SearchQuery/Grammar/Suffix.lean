import SearchQuery.Grammar.Lookahead
import SearchQuery.Reading
set_option autoImplicit false

/-!
# Suffixes

A word or phrase may be loosened by `~` and a number, and an operand boosted by `^` and a number. A
`~` that no number follows is left alone, since it begins a synonym. A second `~` and number that
touch the first are rejected; after a gap they begin a synonym too.
-/

namespace SearchQuery.Grammar

open Reading

def fuzziness : Reading (Option Number) :=
  look fun tokens =>
    if numericSuffixAhead tokens then
      within .fuzzy do
        advance
        let number ← takeOneOf TokenKind.numbers
        if stackedSuffixAhead tokens then
          fail .noViableAlternative []
        else
          return some number
    else
      return none

/-- The slop of a phrase, a whole number. -/
def slop : Reading (Option WholeNumber) :=
  look fun tokens =>
    if numericSuffixAhead tokens then
      within .slop do
        advance
        let number ← take .integer
        if stackedSuffixAhead tokens then
          fail .noViableAlternative []
        else
          return some number
    else
      return none

def boost : Reading (Option Number) :=
  look fun tokens =>
    if nextIs .caret tokens then
      within .boost do
        advance
        let factor ← takeOneOf TokenKind.numbers
        return some factor
    else
      return none

end SearchQuery.Grammar
