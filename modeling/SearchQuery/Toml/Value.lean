set_option autoImplicit false

/-!
# TOML values and faults

The values that a TOML document can hold. Decimal numbers and dates are kept as they are written,
since settings have none.
-/

namespace SearchQuery.Toml

inductive Value where
  | string (text : String)
  | integer (value : Int)
  | float (digits : String)
  | datetime (digits : String)
  | boolean (value : Bool)
  | array (items : List Value)
  | table (entries : List (String × Value))
deriving Repr, Inhabited

/-- Why a text is no TOML document. -/
inductive Fault where
  | expected (wanted : String) (found : Option Char)
  | controlCharacter
  | unclosedString
  | unknownEscape
  | unknownScalar (text : String)
  | numberTooLarge (text : String)
  | duplicateKey (key : String)
  | closedValue (key : String)
  | nestedTooDeep
  | unexpectedType (key : String)
deriving DecidableEq, Repr

def Fault.message : Fault → String
  | expected wanted none => "expected " ++ wanted ++ " at the end of the file"
  | expected wanted (some found) => "expected " ++ wanted ++ ", found '" ++ found.toString ++ "'"
  | controlCharacter => "a control character must be escaped"
  | unclosedString => "a string is not closed"
  | unknownEscape => "unknown escape in a string"
  | unknownScalar text => "no value is written '" ++ text ++ "'"
  | numberTooLarge text => "the number '" ++ text ++ "' is too large"
  | duplicateKey key => "the key '" ++ key ++ "' is defined twice"
  | closedValue key => "the value of '" ++ key ++ "' cannot be extended"
  | nestedTooDeep => "values nest too deep"
  | unexpectedType key => "the value of '" ++ key ++ "' has a wrong type"

end SearchQuery.Toml
