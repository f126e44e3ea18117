set_option autoImplicit false

/-!
# JSON values

The data form of results. `Json.pretty` writes a value over several lines with two blanks per level;
strings keep every character that need not be escaped.
-/

namespace SearchQuery

/-- A JSON value. A number is kept as it is written. -/
inductive Json where
  | null
  | bool (value : Bool)
  | number (digits : String)
  | string (text : String)
  | array (items : List Json)
  | object (members : List (String × Json))
deriving Repr, Inhabited

namespace Json

def ofNat (value : Nat) : Json :=
  .number (toString value)

def hexDigit (value : Nat) : Char :=
  if value < 10 then Char.ofNat ('0'.toNat + value) else Char.ofNat ('a'.toNat + (value - 10))

/-- How a character is written between quotes. -/
def escape (character : Char) : List Char :=
  if character = '\"' then ['\\', '\"']
  else if character = '\\' then ['\\', '\\']
  else if character = '\x08' then ['\\', 'b']
  else if character = '\t' then ['\\', 't']
  else if character = '\n' then ['\\', 'n']
  else if character = '\x0C' then ['\\', 'f']
  else if character = '\r' then ['\\', 'r']
  else if character.toNat < 0x20 then
    ['\\', 'u', '0', '0', hexDigit (character.toNat / 16), hexDigit (character.toNat % 16)]
  else [character]

def quote (text : String) : String :=
  "\"" ++ String.ofList (text.toList.flatMap escape) ++ "\""

/-- The blanks before a line at some depth. -/
def margin (depth : Nat) : String :=
  String.ofList (List.replicate (2 * depth) ' ')

mutual
/-- A value over several lines, its first line without a margin. -/
def prettyAt (depth : Nat) : Json → String
  | null => "null"
  | bool true => "true"
  | bool false => "false"
  | number digits => digits
  | string text => quote text
  | array [] => "[]"
  | array (first :: rest) =>
      "[\n" ++ margin (depth + 1) ++ prettyAt (depth + 1) first ++ prettyItems (depth + 1) rest ++
        "\n" ++ margin depth ++ "]"
  | object [] => "\x7b\x7d"
  | object ((key, first) :: rest) =>
      "\x7b\n" ++ margin (depth + 1) ++ quote key ++ ": " ++ prettyAt (depth + 1) first ++
        prettyMembers (depth + 1) rest ++ "\n" ++ margin depth ++ "\x7d"

/-- The items after the first, each on its own line. -/
def prettyItems (depth : Nat) : List Json → String
  | [] => ""
  | item :: rest => ",\n" ++ margin depth ++ prettyAt depth item ++ prettyItems depth rest

/-- The members after the first, each on its own line. -/
def prettyMembers (depth : Nat) : List (String × Json) → String
  | [] => ""
  | (key, value) :: rest =>
      ",\n" ++ margin depth ++ quote key ++ ": " ++ prettyAt depth value ++
        prettyMembers depth rest
end

def pretty (value : Json) : String :=
  value.prettyAt 0

/-- A member that is left out when there is nothing to say. -/
def member? (key : String) (value : Option Json) : List (String × Json) :=
  value.toList.map fun present => (key, present)

end Json

end SearchQuery
