import SearchQuery.Reading
import SearchQuery.Token.Lexer
set_option autoImplicit false

/-!
# Errors

A query fails while it is cut into tokens or while the tokens are read. A parse error is a failure
together with its place in the token list; a query error is either of the two, with the text of the
query if that is known.
-/

namespace SearchQuery

/-- The name of a fault in data. -/
def ParseFault.name : ParseFault → String
  | unexpectedExtraToken => "unexpected_extra_token"
  | missingExpectedToken => "missing_expected_token"
  | mismatchedToken => "mismatched_token"
  | mismatchedTokenSet => "mismatched_token_set"
  | noViableAlternative => "no_viable_alternative"
  | emptyRequiredRepetition => "empty_required_repetition"
  | failedModePredicate => "failed_mode_predicate"
  | nestingTooDeep => "nesting_too_deep"

namespace ParseFault

def all : List ParseFault :=
  [unexpectedExtraToken, missingExpectedToken, mismatchedToken, mismatchedTokenSet,
    noViableAlternative, emptyRequiredRepetition, failedModePredicate, nestingTooDeep]

def ofName? (text : String) : Option ParseFault :=
  all.find? fun fault => fault.name == text

end ParseFault

/-- A place in a token list: the index of a token, which is the number of tokens at the end, and its
byte offset in the query. -/
structure Position where
  index : Nat
  offset : Nat
deriving DecidableEq, Repr

/-- Why and where a token list is no query: the kinds that would have been accepted as far as they
are known, the token found there unless the list is at its end, and the names of the active rules,
outermost first. -/
structure ParseError where
  fault : ParseFault
  position : Position
  expected : List TokenKind
  actual : Option Token
  rules : List String
deriving DecidableEq, Repr

namespace ParseError

/-- The innermost active rule. -/
def rule? (error : ParseError) : Option String :=
  error.rules.getLast?

end ParseError

/-- The byte offset of what is ahead in a token list: where the next token starts, and at the end
where the last token of the list stops. -/
def offsetAhead (tokens ahead : List Token) : Nat :=
  match ahead with
  | next :: _ => next.start
  | [] => (tokens.getLast?.map Token.stop).getD 0

/-- The error that a failure is in the token list that was read. -/
def Failure.locate (tokens : List Token) (failure : Failure) : ParseError where
  fault := failure.cause
  position := ⟨tokens.length - failure.ahead.length, offsetAhead tokens failure.ahead⟩
  expected := failure.expected
  actual := failure.ahead.head?
  rules := failure.rules.map Rule.name

/-- What went wrong with a query. -/
inductive QueryFault where
  | lex (message : String) (position : Nat)
  | parse (error : ParseError)
deriving DecidableEq, Repr

/-- What went wrong with a query, and its text if that is known. -/
structure QueryError where
  fault : QueryFault
  query : Option String
deriving DecidableEq, Repr

namespace QueryError

def ofLexError (error : LexError) : QueryError :=
  ⟨.lex error.message error.position, some error.input⟩

/-- A token list that could not be read; the query is not known. -/
def ofParseError (error : ParseError) : QueryError :=
  ⟨.parse error, none⟩

/-- The same error about a query whose text is known. -/
def withQuery (error : QueryError) (query : String) : QueryError :=
  { error with query := some query }

/-- The byte offset that the error points at. -/
def position (error : QueryError) : Nat :=
  match error.fault with
  | .lex _ position => position
  | .parse parseError => parseError.position.offset

def parseError? (error : QueryError) : Option ParseError :=
  match error.fault with
  | .lex _ _ => none
  | .parse parseError => some parseError

end QueryError

end SearchQuery
