import SearchQuery.Text.Columns.Letter
import SearchQuery.Text.Columns.Pictograph
import SearchQuery.Text.Columns.Width
set_option autoImplicit false

/-!
# Shapes of several characters

A character can be shown as one shape with the characters after it: a lam with the alef that
follows it, a Khmer letter below another, two letters of a flag, pictographs with a joiner between
them. Text is therefore measured from its end, and a `Shape` is what the characters measured so far
begin with, as far as the character before them depends on it.

`Shape.compose?` holds the rules. It gives the columns that a character adds to a shape and the
shape that begins with it. Columns can be negative, when a shape turns out narrower than its parts.
-/

namespace SearchQuery.Text

/-- The letters that can make one shape with the letter before them. -/
inductive Letter where
  | lamed
  | khmerLetter
  | bugineseYa
  | bugineseVowelYa
  | tifinaghConsonant
  | tifinaghJoiner
  | lisuTone
  | orkhonI
  | kiratVowelE
  | kiratVowelAi
deriving DecidableEq, Repr

/-- The beginnings of a pictograph that can make one shape with the character before them. A tag is
the name of a region, read from its end: some digits before some letters. -/
inductive Pictograph where
  | whole
  | tone
  | joined
  | joinedKeycap
  | flagLetter
  | flagLetters
  | joinedFlagLetter
  | joinedFlagLetters (paired : Bool)
  | tag (letters digits : Nat)
deriving DecidableEq, Repr

/-- What characters begin with, as far as the character before them depends on it. -/
inductive Shape where
  | plain
  | lineFeed
  | alef
  | letter (sign : Letter) (joined : Bool)
  | pictograph (sign : Pictograph)
deriving DecidableEq, Repr, Inhabited

/-- The zero-width joiner, across which letters and pictographs make one shape. -/
def joiner : Char :=
  '\u200D'

namespace Letter

def ofChar? (character : Char) : Option Letter :=
  if character = '\u05DC' then some .lamed
  else if isKhmerLetter character then some .khmerLetter
  else if character = '\u1A10' then some .bugineseYa
  else if isTifinagh character then some .tifinaghConsonant
  else if inRanges [(0xA4FC, 0xA4FD)] character then some .lisuTone
  else if character.toNat = 0x10C03 then some .orkhonI
  else if character.toNat = 0x16D67 then some .kiratVowelE
  else if character.toNat = 0x16D68 then some .kiratVowelAi
  else none

/-- How a character makes one shape with a letter, given whether a joiner stands between them. -/
def compose? (joined : Bool) (character : Char) : Letter → Option (Int × Shape)
  | .lamed => if joined && character = '\u05D0' then some (0, .plain) else none
  | .khmerLetter => if character = '\u17D2' then some (-1, .plain) else none
  | .bugineseYa =>
      if joined && character = '\u1A17' then some (0, .letter .bugineseVowelYa false) else none
  | .bugineseVowelYa => if character = '\u1A15' then some (0, .plain) else none
  | .tifinaghConsonant =>
      if character = '\u2D7F' then some (1, .letter .tifinaghJoiner false)
      else if joined && isTifinagh character then some (0, .plain)
      else none
  | .tifinaghJoiner => if isTifinagh character then some (-1, .plain) else none
  | .lisuTone => if inRanges [(0xA4F8, 0xA4FB)] character then some (0, .plain) else none
  | .orkhonI => if joined && character.toNat = 0x10C32 then some (0, .plain) else none
  | .kiratVowelE =>
      if character.toNat = 0x16D63 || character.toNat = 0x16D69 then some (0, .plain)
      else if character.toNat = 0x16D67 then some (0, .letter .kiratVowelAi false)
      else if character.toNat = 0x16D68 then some (1, .letter .kiratVowelE false)
      else none
  | .kiratVowelAi => if character.toNat = 0x16D63 then some (0, .plain) else none

end Letter

namespace Pictograph

def ofChar? (character : Char) : Option Pictograph :=
  if isFlagLetter character then some .flagLetter
  else if isTone character then some .tone
  else if isPictograph character then some .whole
  else none

def join? (character : Char) : Option (Int × Pictograph) :=
  if character = joiner then some (0, .joined) else none

/-- How a character makes one shape with the name of a region. The name has three digits, or from
three to six letters, and a black flag before it. -/
def extendTag? (letters digits : Nat) (character : Char) : Option (Int × Pictograph) :=
  if inRanges [(0xE0061, 0xE007A)] character && digits = 0 && letters < 6 then
    some (0, .tag (letters + 1) 0)
  else if inRanges [(0xE0030, 0xE0039)] character && letters ≤ 4 && digits < 3 then
    some (0, .tag letters (digits + 1))
  else if character.toNat = 0x1F3F4 && (digits = 3 || digits = 0 && 3 ≤ letters) then
    some (0, .whole)
  else none

/-- How a character makes one shape with a pictograph. -/
def compose? (character : Char) : Pictograph → Option (Int × Pictograph)
  | .whole => join? character
  | .tone => if isToned character then some (0, .whole) else join? character
  | .joined =>
      if character = '\u20E3' then some (0, .joinedKeycap)
      else if isFlagLetter character then some (1, .joinedFlagLetter)
      else if isTone character then some (0, .tone)
      else if character.toNat = 0xE007F then some (0, .tag 0 0)
      else if isPictograph character then some (0, .whole)
      else none
  | .joinedKeycap => none
  | .flagLetter => if isFlagLetter character then some (1, .flagLetters) else none
  | .flagLetters => if isFlagLetter character then some (1, .flagLetters) else join? character
  | .joinedFlagLetter =>
      if isFlagLetter character then some (-1, .joinedFlagLetters true) else none
  | .joinedFlagLetters paired =>
      if isFlagLetter character then
        some (if paired then 3 else -1, .joinedFlagLetters !paired)
      else join? character
  | .tag letters digits => extendTag? letters digits character

end Pictograph

namespace Shape

/-- The shape that a character begins on its own. -/
def ofChar (character : Char) : Shape :=
  if isAlef character then .alef
  else match Letter.ofChar? character with
    | some sign => .letter sign false
    | none => ((Pictograph.ofChar? character).map Shape.pictograph).getD .plain

/-- How a character makes one shape with what follows it. -/
def compose? (character : Char) : Shape → Option (Int × Shape)
  | .plain => none
  | .lineFeed => none
  | .alef =>
      if isLam character then some (0, .plain)
      else if isTransparentMark character then some (0, .alef)
      else none
  | .letter sign joined =>
      if character = joiner then some (0, .letter sign true)
      else if isPassed character then some (0, .letter sign joined)
      else sign.compose? joined character
  | .pictograph sign =>
      (sign.compose? character).map fun (columns, next) => (columns, .pictograph next)

/-- Whether a shape begins with a letter, which a variation selector before it leaves in view. -/
def isLetter : Shape → Bool
  | .alef => true
  | .letter _ _ => true
  | _ => false

/-- Whether a shape begins with a joiner, so that a pictograph before it takes no column of its
own. -/
def isJoined : Shape → Bool
  | .pictograph .joined => true
  | .pictograph .joinedKeycap => true
  | _ => false

end Shape

end SearchQuery.Text
