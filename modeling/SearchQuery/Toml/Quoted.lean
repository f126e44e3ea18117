import SearchQuery.Toml.Scalar
set_option autoImplicit false

/-!
# Strings

Basic strings have escapes and literal strings have none; both come on a single line, or over
several lines between three quotes. The readings begin after the opening quotes. Each step takes a
character at least, so a number of steps that the length of the text gives always suffices.
-/

namespace SearchQuery.Toml.Quoted

/-- What a reading yields: a value and the characters after it. -/
abbrev Taken (α : Type) := α × List Char

/-- The characters that no string and no comment may hold as they are. -/
def isControl (character : Char) : Bool :=
  (character.toNat < 0x20 && character != '\t') || character.toNat == 0x7F

def isSpace (character : Char) : Bool :=
  character == ' ' || character == '\t'

/-- The characters after a line end, if one comes next. -/
def afterNewline? : List Char → Option (List Char)
  | '\n' :: rest => some rest
  | '\r' :: '\n' :: rest => some rest
  | _ => none

/-- The character with a code given by so many hexadecimal digits. -/
def coded? (count : Nat) (characters : List Char) : Option (Char × List Char) :=
  let digits := characters.take count
  if digits.length = count ∧ digits.all fun digit => (Scalar.digitValue? 16 digit).isSome then
    let code := Scalar.valueOf 16 digits
    if code.isValidChar then some (Char.ofNat code, characters.drop count) else none
  else none

/-- The character that an escape stands for, from the characters after the backslash. -/
def escaped? : List Char → Option (Char × List Char)
  | 'b' :: rest => some ('\x08', rest)
  | 't' :: rest => some ('\t', rest)
  | 'n' :: rest => some ('\n', rest)
  | 'f' :: rest => some ('\x0C', rest)
  | 'r' :: rest => some ('\r', rest)
  | 'e' :: rest => some ('\x1B', rest)
  | '\"' :: rest => some ('\"', rest)
  | '\\' :: rest => some ('\\', rest)
  | 'x' :: rest => coded? 2 rest
  | 'u' :: rest => coded? 4 rest
  | 'U' :: rest => coded? 8 rest
  | _ => none

/-- Puts a character in front of what is read. -/
def cons (character : Char) (result : Except Fault (Taken (List Char))) :
    Except Fault (Taken (List Char)) :=
  result.map fun (text, rest) => (character :: text, rest)

def basic : Nat → List Char → Except Fault (Taken (List Char))
  | 0, _ => .error .unclosedString
  | _ + 1, [] => .error .unclosedString
  | _ + 1, '\"' :: rest => .ok ([], rest)
  | steps + 1, '\\' :: rest =>
      match escaped? rest with
      | some (character, after) => cons character (basic steps after)
      | none => .error .unknownEscape
  | steps + 1, character :: rest =>
      if isControl character then .error .controlCharacter else cons character (basic steps rest)

def literal : List Char → Except Fault (Taken (List Char))
  | [] => .error .unclosedString
  | '\'' :: rest => .ok ([], rest)
  | character :: rest =>
      if isControl character then .error .controlCharacter else cons character (literal rest)

/-- The quotes that belong to the text of a string that three quotes close, when at least three come
next: at most two, before the closing ones. -/
def closing? (quote : Char) (characters : List Char) : Option (List Char × List Char) :=
  let count := min 5 (characters.takeWhile (· == quote)).length
  if 3 ≤ count then some (List.replicate (count - 3) quote, characters.drop count) else none

def skipLines : List Char → List Char
  | [] => []
  | '\r' :: '\n' :: rest => skipLines rest
  | character :: rest =>
      if isSpace character || character == '\n' then skipLines rest else character :: rest

/-- A basic string over several lines. A backslash at the end of a line takes the line end with it,
and the blanks and line ends that follow. -/
def basicLines : Nat → List Char → Except Fault (Taken (List Char))
  | 0, _ => .error .unclosedString
  | _ + 1, [] => .error .unclosedString
  | steps + 1, '\\' :: rest =>
      match escaped? rest with
      | some (character, after) => cons character (basicLines steps after)
      | none =>
          match afterNewline? (rest.dropWhile isSpace) with
          | some after => basicLines steps (skipLines after)
          | none => .error .unknownEscape
  | steps + 1, character :: rest =>
      match closing? '\"' (character :: rest), afterNewline? (character :: rest) with
      | some result, _ => .ok result
      | none, some after => cons '\n' (basicLines steps after)
      | none, none =>
          if isControl character then .error .controlCharacter
          else cons character (basicLines steps rest)

def literalLines : Nat → List Char → Except Fault (Taken (List Char))
  | 0, _ => .error .unclosedString
  | _ + 1, [] => .error .unclosedString
  | steps + 1, character :: rest =>
      match closing? '\'' (character :: rest), afterNewline? (character :: rest) with
      | some result, _ => .ok result
      | none, some after => cons '\n' (literalLines steps after)
      | none, none =>
          if isControl character then .error .controlCharacter
          else cons character (literalLines steps rest)

/-- The text after three opening quotes: a line end that comes first does not belong to it. -/
def afterOpening (characters : List Char) : List Char :=
  (afterNewline? characters).getD characters

/-- A string, if a quote comes next. -/
def read? (characters : List Char) : Option (Except Fault (Taken (List Char))) :=
  let steps := characters.length
  match characters with
  | '\"' :: '\"' :: '\"' :: rest => some (basicLines steps (afterOpening rest))
  | '\"' :: rest => some (basic steps rest)
  | '\'' :: '\'' :: '\'' :: rest => some (literalLines steps (afterOpening rest))
  | '\'' :: rest => some (literal rest)
  | _ => none

end SearchQuery.Toml.Quoted
