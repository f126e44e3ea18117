import SearchQuery.Error
set_option autoImplicit false

/-!
# What is said about errors

Each fault has one wording, and some errors have a hint. The first hint that applies is given, so
their order matters. The display of an error adds the query with a caret under the offending
character; it does not exist when the offset lies inside a character.
-/

namespace SearchQuery

namespace ParseError

/-- What was found: the text of a token, or the end. -/
def found (error : ParseError) : String :=
  match error.actual with
  | some token => "'" ++ token.text ++ "'"
  | none => "end of query"

/-- What was wanted: the names of the expected kinds. -/
def wanted (error : ParseError) : String :=
  ", ".intercalate (error.expected.map TokenKind.name)

def message (error : ParseError) : String :=
  match error.fault with
  | .unexpectedExtraToken => "unexpected " ++ error.found ++ " after end of query"
  | .missingExpectedToken => "missing " ++ error.wanted ++ " at " ++ error.found
  | .mismatchedToken => "expected " ++ error.wanted ++ ", found " ++ error.found
  | .mismatchedTokenSet => "expected one of " ++ error.wanted ++ ", found " ++ error.found
  | .noViableAlternative =>
      "no viable alternative at " ++ error.found ++
        if error.expected.isEmpty then "" else " (expected one of " ++ error.wanted ++ ")"
  | .emptyRequiredRepetition => "expected at least one item, found " ++ error.found
  | .failedModePredicate => "rule is not valid in the configured mode"
  | .nestingTooDeep => "query nests deeper than 64 levels at " ++ error.found

/-- Whether the innermost rule begins with a text. Without active rules it is empty. -/
def ruleStartsWith (error : ParseError) (text : String) : Bool :=
  text.toList.isPrefixOf (error.rule?.getD "").toList

def ruleEndsWith (error : ParseError) (text : String) : Bool :=
  text.toList.isSuffixOf (error.rule?.getD "").toList

/-- A hint on how to mend the query. -/
def hint? (error : ParseError) : Option String :=
  if error.fault = .nestingTooDeep then
    some "Reduce the number of nested groups"
  else if .rparen ∈ error.expected then
    some "Add a closing parenthesis ) to match the opening one"
  else if error.ruleStartsWith "cmis" then
    some "CMIS queries accept only terms, phrases, '-' exclusions and OR"
  else if error.ruleEndsWith "range" then
    some "Ranges look like [low TO high] or low..high"
  else if error.fault = .mismatchedToken ∧ error.expected = [.integer] then
    some "Phrase slop must be a whole number, e.g. \"a b\"~2"
  else if error.fault = .noViableAlternative ∧
      (error.rule? = some Rule.fuzzy.name ∨ error.rule? = some Rule.slop.name) then
    some "A term or phrase takes a single ~ suffix, e.g. word~0.8"
  else if error.fault = .mismatchedTokenSet ∧ error.ruleEndsWith "boost" then
    some "A boost must be a number, e.g. word^2"
  else
    none

end ParseError

def occursIn (part : List Char) : List Char → Bool
  | [] => part.isEmpty
  | character :: rest => part.isPrefixOf (character :: rest) || occursIn part rest

/-- A hint on a query that cannot be cut into tokens, by what is said about it. -/
def lexHint? (message : String) : Option String :=
  if occursIn "unclosed phrase".toList message.toList then
    some "Add a closing quote (\") to complete the phrase"
  else if occursIn "escape".toList message.toList then
    some "A backslash must be followed by the character it escapes"
  else
    none

/-- The error with the query and a caret as many bytes to the right as its position says. -/
def LexError.context (error : LexError) : String :=
  "query syntax error: " ++ error.message ++ "\n  " ++ error.input ++ "\n" ++
    Text.caretLine error.position

namespace QueryError

def message (error : QueryError) : String :=
  match error.fault with
  | .lex message _ => message
  | .parse parseError => parseError.message

/-- A hint on how to mend the query. -/
def hint? (error : QueryError) : Option String :=
  match error.fault with
  | .lex message _ => lexHint? message
  | .parse parseError => parseError.hint?

/-- The query and the caret under it. Without a query, nothing; inside a character, no such text
exists. -/
def excerpt? (error : QueryError) : Option String :=
  match error.query with
  | none => some ""
  | some query =>
      (Text.column? query.toList error.position).map fun column =>
        "  " ++ query ++ "\n" ++ Text.caretLine column ++ "\n"

/-- The whole text that is shown for an error, unless its position is inside a character of the
query. -/
def display? (error : QueryError) : Option String :=
  error.excerpt?.map fun excerpt =>
    "query syntax error: " ++ error.message ++ "\n" ++ excerpt ++
      ((error.hint?.map ("hint: " ++ ·)).getD "")

end QueryError

end SearchQuery
