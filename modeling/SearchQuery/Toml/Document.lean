import SearchQuery.Toml.Quoted
import SearchQuery.Toml.Table
set_option autoImplicit false

/-!
# Documents

A document is read line by line: blank lines, comments, headers, and keys with values. The readings
take characters off the front and yield the rest; those that repeat are given a number of steps, of
which the length of the text always is enough. Nested values count down levels.
-/

namespace SearchQuery.Toml

open Quoted (Taken isControl isSpace afterNewline?)

/-- The number of levels that values may nest. -/
def maxLevels : Nat := 80

def skipSpaces (characters : List Char) : List Char :=
  characters.dropWhile isSpace

/-- The characters after a comment, up to the line end. -/
def skipComment : List Char → Except Fault (List Char)
  | [] => .ok []
  | character :: rest =>
      match afterNewline? (character :: rest) with
      | some _ => .ok (character :: rest)
      | none => if isControl character then .error .controlCharacter else skipComment rest

/-- The characters after the end of a line, which may have a comment before it. -/
def endLine (characters : List Char) : Except Fault (List Char) := do
  let rest ← match skipSpaces characters with
    | '#' :: comment => skipComment comment
    | other => .ok other
  match rest with
  | [] => return []
  | character :: _ =>
      match afterNewline? rest with
      | some after => return after
      | none => .error (.expected "the end of the line" (some character))

/-- The characters after blanks, line ends and comments. -/
def skipTrivia : Nat → List Char → Except Fault (List Char)
  | 0, characters => .ok characters
  | steps + 1, characters =>
      match skipSpaces characters with
      | '#' :: comment => do skipTrivia steps (← skipComment comment)
      | other =>
          match afterNewline? other with
          | some after => skipTrivia steps after
          | none => .ok other

/-- Takes a character that must come next. -/
def require (wanted : Char) : List Char → Except Fault (List Char)
  | [] => .error (.expected wanted.toString none)
  | character :: rest =>
      if character = wanted then .ok rest else .error (.expected wanted.toString (some character))

/-- Whether a character may stand in a key without quotes. -/
def isBareKeyCharacter (character : Char) : Bool :=
  Word.isLetter character || Word.isDigit character || character == '_' || character == '-'

/-- A key without points. Strings over several lines are no keys. -/
def simpleKey (characters : List Char) : Except Fault (Taken String) :=
  match characters with
  | '\"' :: rest =>
      (Quoted.basic characters.length rest).map fun (text, after) => (String.ofList text, after)
  | '\'' :: rest => (Quoted.literal rest).map fun (text, after) => (String.ofList text, after)
  | _ =>
      match characters.takeWhile isBareKeyCharacter with
      | [] => .error (.expected "a key" characters.head?)
      | bare => .ok (String.ofList bare, characters.dropWhile isBareKeyCharacter)

/-- One key or several with points between them: those before the last, and the last. -/
def key : Nat → List Char → Except Fault (Taken (List String × String))
  | 0, characters => .error (.expected "a key" characters.head?)
  | steps + 1, characters => do
      let (first, rest) ← simpleKey characters
      match skipSpaces rest with
      | '.' :: after => do
          let ((path, last), rest) ← key steps (skipSpaces after)
          return ((first :: path, last), rest)
      | other => return (([], first), other)

def keyValue (value : List Char → Except Fault (Taken Value)) (characters : List Char) :
    Except Fault (Taken ((List String × String) × Value)) := do
  let (key, rest) ← key characters.length characters
  let rest ← require '=' rest
  let (value, rest) ← value (skipSpaces rest)
  return ((key, value), rest)

/-- The items of an array after its opening bracket or a comma. A comma may follow the last item. -/
def arrayItems (value : List Char → Except Fault (Taken Value)) :
    Nat → List Char → Except Fault (Taken (List Value))
  | 0, characters => .error (.expected "]" characters.head?)
  | steps + 1, characters => do
      match ← skipTrivia characters.length characters with
      | ']' :: rest => return ([], rest)
      | start => do
          let (item, rest) ← value start
          match ← skipTrivia rest.length rest with
          | ']' :: rest => return ([item], rest)
          | ',' :: rest => do
              let (items, rest) ← arrayItems value steps rest
              return (item :: items, rest)
          | other => .error (.expected "a comma or ]" other.head?)

/-- The entries of a table in braces after its opening brace or a comma. -/
def inlineEntries (value : List Char → Except Fault (Taken Value)) :
    Nat → Entries → List Char → Except Fault (Taken Entries)
  | 0, _, characters => .error (.expected "a closing brace" characters.head?)
  | steps + 1, entries, characters => do
      match ← skipTrivia characters.length characters with
      | '}' :: rest => return (entries, rest)
      | start => do
          let (((path, key), value'), rest) ← keyValue value start
          let entries ← entries.define key value' path
          match ← skipTrivia rest.length rest with
          | '}' :: rest => return (entries, rest)
          | ',' :: rest => inlineEntries value steps entries rest
          | other => .error (.expected "a comma or a closing brace" other.head?)

/-- A value, in which values may nest so many levels. -/
def value : Nat → List Char → Except Fault (Taken Value)
  | levels, characters =>
      match Quoted.read? characters with
      | some result => result.map fun (text, rest) => (.string (String.ofList text), rest)
      | none =>
          match characters, levels with
          | '[' :: _, 0 | '{' :: _, 0 => .error .nestedTooDeep
          | '[' :: rest, levels + 1 =>
              (arrayItems (value levels) characters.length rest).map fun (items, after) =>
                (.array items, after)
          | '{' :: rest, levels + 1 =>
              (inlineEntries (value levels) characters.length [] rest).map fun (entries, after) =>
                (.table (Item.toEntries entries), after)
          | _, _ =>
              match Scalar.cut characters with
              | ([], _) => .error (.expected "a value" characters.head?)
              | (scalar, rest) => (Scalar.read scalar).map fun value => (value, rest)

/-- A document as far as it has been read: its entries, and the table that keys are added to. -/
structure Draft where
  entries : Entries
  current : List String

/-- A header after its opening brackets: the draft in which its table is the current one. -/
def header (opens : String → Entries → Except Fault Entries) (draft : Draft)
    (characters : List Char) : Except Fault (Taken Draft) := do
  let start := skipSpaces characters
  let ((path, last), rest) ← key start.length start
  let entries ← draft.entries.follow (opens last) path
  return (⟨entries, path ++ [last]⟩, rest)

def line (draft : Draft) (characters : List Char) : Except Fault (Taken Draft) := do
  match skipSpaces characters with
  | [] => return (draft, [])
  | '#' :: rest => return (draft, '#' :: rest)
  | '[' :: '[' :: rest => do
      let (draft, rest) ← header Entries.openTables draft rest
      let rest ← require ']' rest
      return (draft, ← require ']' rest)
  | '[' :: rest => do
      let (draft, rest) ← header Entries.openTable draft rest
      return (draft, ← require ']' rest)
  | start =>
      match afterNewline? start with
      | some _ => return (draft, start)
      | none => do
          let (((path, key), value), rest) ← keyValue (value maxLevels) start
          let entries ←
            draft.entries.follow (fun entries => entries.define key value path) draft.current
          return ({ draft with entries }, rest)

def lines : Nat → Draft → List Char → Except Fault Draft
  | 0, draft, _ => .ok draft
  | _ + 1, draft, [] => .ok draft
  | steps + 1, draft, characters => do
      let (draft, rest) ← line draft characters
      lines steps draft (← endLine rest)

/-- The characters of a document after a byte order mark. -/
def withoutMark : List Char → List Char
  | '\uFEFF' :: rest => rest
  | characters => characters

def parse (text : String) : Except Fault (List (String × Value)) := do
  let characters := withoutMark text.toList
  let draft ← lines (characters.length + 1) ⟨[], []⟩ characters
  return Item.toEntries draft.entries

end SearchQuery.Toml
