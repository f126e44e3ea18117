import SearchQuery.Text.Columns.Shape
set_option autoImplicit false

/-!
# Terminal columns

How many columns of a terminal a text takes. A character takes its own columns, unless it makes one
shape with what follows it, or a variation selector follows it and says how it is shown. Control
characters take one column, and so does the break of a line.

The main statement says that text of printable ASCII characters takes as many columns as it has
characters.
-/

namespace SearchQuery.Text

/-- What stands after a character: a shape, and the variation selectors before it. -/
structure Follower where
  shape : Shape := .plain
  emojiSelected : Bool := false
  textSelected : Bool := false
  quoteSelected : Bool := false
deriving DecidableEq, Repr, Inhabited

/-- Whether a character is a curved quotation mark, which a selector makes wide. -/
def isCurvedQuote (character : Char) : Bool :=
  ['\u2018', '\u2019', '\u201C', '\u201D'].contains character

namespace Follower

/-- A follower with a variation selector before it, if the character is one. The selector hides
what follows it, save letters and, for the emoji selector, a joiner. -/
def select? (follower : Follower) (character : Char) : Option Follower :=
  let visible := if follower.shape.isLetter then follower else {}
  if character = '\uFE0F' then
    some { (if follower.shape.isJoined then follower else visible) with emojiSelected := true }
  else if character = '\uFE0E' then some { visible with textSelected := true }
  else if character = '\uFE01' then some { visible with quoteSelected := true }
  else none

/-- A follower whose emoji selector has no effect on the character before it. -/
def unselected (follower : Follower) : Follower :=
  if !follower.emojiSelected then follower
  else if follower.shape.isLetter then { follower with emojiSelected := false }
  else {}

/-- The columns that a character adds before a follower, and what begins with the character. -/
def prepend (follower : Follower) (character : Char) : Int × Follower :=
  if follower.emojiSelected && isSelectable character then
    (if follower.shape.isJoined then 0 else 2, { shape := .pictograph .whole })
  else
    let follower := follower.unselected
    if character.toNat ≤ 0xA0 then
      if character = '\n' then (1, { shape := .lineFeed })
      else if character = '\r' && follower.shape = .lineFeed then (0, {})
      else (1, {})
    else match follower.select? character with
      | some selected => (0, selected)
      | none =>
          if follower.textSelected && isTextual character then (1, {})
          else if follower.quoteSelected && isCurvedQuote character then (2, {})
          else match follower.shape.compose? character with
            | some (columns, shape) => (columns, { shape := shape })
            | none => (charColumns character, { shape := .ofChar character })

end Follower

/-- The columns of characters, and what they begin with. -/
def measure (characters : List Char) : Int × Follower :=
  characters.foldr (fun character (columns, follower) =>
    let (added, next) := follower.prepend character
    (columns + added, next)) (0, {})

def columns (text : String) : Nat :=
  (measure text.toList).1.toNat

/-- A printable ASCII character before other text of that kind takes one column. -/
theorem Follower.prepend_of_printable {character : Char} (low : 0x20 ≤ character.toNat)
    (high : character.toNat ≤ 0x7E) : Follower.prepend {} character = (1, {}) := by
  have noBreak : character ≠ '\n' := by rintro rfl; exact absurd low (by decide)
  have noReturn : character ≠ '\r' := by rintro rfl; exact absurd low (by decide)
  have bounded : character.toNat ≤ 0xA0 := by omega
  simp [Follower.prepend, bounded, noBreak, noReturn]

theorem measure_of_printable {characters : List Char}
    (printable : ∀ character ∈ characters, 0x20 ≤ character.toNat ∧ character.toNat ≤ 0x7E) :
    measure characters = ((characters.length : Int), {}) := by
  induction characters with
  | nil => rfl
  | cons character rest ih =>
      have head := printable character List.mem_cons_self
      have tail := ih fun other member => printable other (List.mem_cons_of_mem _ member)
      have step : measure (character :: rest) =
          ((measure rest).1 + ((measure rest).2.prepend character).1,
            ((measure rest).2.prepend character).2) := rfl
      rw [step, tail, Follower.prepend_of_printable head.1 head.2]
      simp

/-- Text of printable ASCII characters takes as many columns as it has characters. -/
theorem columns_of_printable {text : String}
    (printable : ∀ character ∈ text.toList, 0x20 ≤ character.toNat ∧ character.toNat ≤ 0x7E) :
    columns text = text.length := by
  rw [columns, measure_of_printable printable, Int.toNat_natCast, String.length_toList]

end SearchQuery.Text
