import SearchQuery.Token
set_option autoImplicit false

/-!
# Word classes

A word is a run of characters that are neither blank nor delimiters. Its class is read off its
characters alone: the wildcards that no backslash escapes come first, then escapes, then the
grammars of integers, decimal numbers, keywords and identifiers.
-/

namespace SearchQuery.Word

def isDigit (character : Char) : Bool :=
  '0' ≤ character && character ≤ '9'

def isLetter (character : Char) : Bool :=
  ('a' ≤ character && character ≤ 'z') || ('A' ≤ character && character ≤ 'Z')

def isInteger (characters : List Char) : Bool :=
  !characters.isEmpty && characters.all isDigit

/-- Digits, a point, digits. -/
def isDecimal (characters : List Char) : Bool :=
  match characters.dropWhile (· != '.') with
  | [] => false
  | _ :: fraction => isInteger (characters.takeWhile (· != '.')) && isInteger fraction

def isExponentMark (character : Char) : Bool :=
  character == 'e' || character == 'E'

/-- A decimal with an optional exponent, whose only sign is a minus. -/
def isFloat (characters : List Char) : Bool :=
  isDecimal (characters.takeWhile (!isExponentMark ·)) &&
    match characters.dropWhile (!isExponentMark ·) with
    | [] => true
    | _ :: '-' :: exponent => isInteger exponent
    | _ :: exponent => isInteger exponent

def startsIdentifier (character : Char) : Bool :=
  isLetter character || character == '_'

def continuesIdentifier (character : Char) : Bool :=
  startsIdentifier character || isDigit character || character == '$' || character == '#'

/-- An identifier: `[A-Za-z_][A-Za-z0-9_$#]*`. -/
def isIdentifier : List Char → Bool
  | [] => false
  | first :: rest => startsIdentifier first && rest.all continuesIdentifier

/-- An ASCII capital as its small letter; every other character as it is. -/
def lower (character : Char) : Char :=
  if 'A' ≤ character && character ≤ 'Z' then Char.ofNat (character.toNat + 32) else character

/-- Equality that ignores the case of ASCII letters. -/
def eqIgnoringCase (left right : List Char) : Bool :=
  left.map lower == right.map lower

/-- The keyword that a word spells in any case. -/
def keyword? (characters : List Char) : Option TokenKind :=
  if eqIgnoringCase characters ['a', 'n', 'd'] then some .and
  else if eqIgnoringCase characters ['o', 'r'] then some .or
  else if eqIgnoringCase characters ['n', 'o', 't'] then some .not
  else if eqIgnoringCase characters ['t', 'o'] then some .upTo
  else none

/-- The characters that stand for themselves: a backslash and the one after it are left out. -/
def unescaped : List Char → List Char
  | [] => []
  | ['\\'] => []
  | '\\' :: _ :: rest => unescaped rest
  | character :: rest => character :: unescaped rest

def isWildcard (character : Char) : Bool :=
  character == '*' || character == '?'

/-- Whether the last character is a star that no backslash escapes. -/
def endsInStar : List Char → Bool
  | [] => false
  | ['*'] => true
  | '\\' :: _ :: rest => endsInStar rest
  | _ :: rest => endsInStar rest

/-- The class of a word without wildcards and escapes. -/
def classifyPlain (characters : List Char) : TokenKind :=
  if isInteger characters then .integer
  else if isFloat characters then .float
  else if isIdentifier characters then (keyword? characters).getD .id
  else .word

/-- The class of a word. A single closing star makes a prefix pattern, unless it is all there is;
any other use of wildcards makes a pattern; an escape makes a plain word. -/
def classify (characters : List Char) : TokenKind :=
  let wildcards := (unescaped characters).countP isWildcard
  if wildcards = 1 && endsInStar characters && 1 < characters.length then .prefixWord
  else if 0 < wildcards then .wildWord
  else if characters.contains '\\' then .word
  else classifyPlain characters

end SearchQuery.Word
