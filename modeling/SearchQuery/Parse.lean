import SearchQuery.Error
import SearchQuery.Grammar.Cmis
import SearchQuery.Query.Tree
set_option autoImplicit false

/-!
# Parsing

A token list is read with the grammar of a dialect, and the operands are arranged to a tree. `parse`
cuts a query into tokens first.
-/

namespace SearchQuery

/-- The reading of a whole query in a dialect. -/
def readQuery : Dialect → Reading (List Operand)
  | .full => Grammar.query
  | .cmis => Grammar.Cmis.query

/-- The failure of asking for a dialect that the mode does not read. -/
def Failure.ofDialect (tokens : List Token) : Failure :=
  ⟨.failedModePredicate, [], tokens, []⟩

/-- The operands of a token list in a dialect, which must be that of the mode. -/
def readTokensAs (dialect : Dialect) (mode : Mode) (tokens : List Token) :
    Except Failure (List Operand) :=
  if mode.dialect = dialect then
    match (readQuery dialect).run tokens with
    | .ok (operands, _) => .ok operands
    | .error failure => .error failure
  else
    .error (Failure.ofDialect tokens)

def readTokens (mode : Mode) (tokens : List Token) : Except Failure (List Operand) :=
  readTokensAs mode.dialect mode tokens

/-- The tree of operands, or the place of a failure. -/
def treeOrError (settings : Settings) (tokens : List Token) :
    Except Failure (List Operand) → Except ParseError Node
  | .ok operands => .ok (queryTree settings operands)
  | .error failure => .error (failure.locate tokens)

/-- The tree of a token list in a dialect, which must be that of the mode. -/
def parseTokensAs (dialect : Dialect) (settings : Settings) (tokens : List Token) :
    Except ParseError Node :=
  treeOrError settings tokens (readTokensAs dialect settings.mode tokens)

def parseTokens (settings : Settings) (tokens : List Token) : Except ParseError Node :=
  parseTokensAs settings.mode.dialect settings tokens

def parse (settings : Settings) (query : String) : Except QueryError Node :=
  match tokenize query with
  | .error error => .error (.ofLexError error)
  | .ok tokens =>
      match parseTokens settings tokens with
      | .ok tree => .ok tree
      | .error error => .error ((QueryError.ofParseError error).withQuery query)

end SearchQuery
