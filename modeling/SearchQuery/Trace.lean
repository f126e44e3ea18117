import SearchQuery.Parse
import SearchQuery.Error
set_option autoImplicit false

/-!
# What is logged while a query is read

Every token that is taken is logged, also by trials, and so is the end of each trial. A trial begins
where the reading stands, so the log is that of the reading itself with the trials put in where they
began.
-/

namespace SearchQuery

inductive Severity where
  | debug
  | trace
deriving DecidableEq, Repr

inductive Event where
  | effectiveSettings (settings : Settings)
  | parsed (mode : Mode) (tokens : Nat)
  | rejected (mode : Mode) (fault : ParseFault) (index : Nat)
  | advance (index : Nat) (kind : TokenKind) (text : String)
  | trial (index : Nat) (accepted : Bool)
deriving DecidableEq, Repr

namespace Event

def showBool (value : Bool) : String :=
  if value then "true" else "false"

def severity : Event → Severity
  | effectiveSettings _ | parsed _ _ | rejected _ _ _ => .debug
  | advance _ _ _ | trial _ _ => .trace

/-- The part of the program that an event belongs to. -/
def target : Event → String
  | effectiveSettings _ => "fts::cli::commands::parse"
  | parsed _ _ | rejected _ _ _ | trial _ _ => "fts_query::parser"
  | advance _ _ _ => "fts_query::token"

def message : Event → String
  | effectiveSettings _ => "effective parser settings"
  | parsed _ _ => "parsed query"
  | rejected _ _ _ => "query rejected"
  | advance _ _ _ => "advance"
  | trial _ _ => "trial"

def fields : Event → List (String × String)
  | effectiveSettings settings =>
      [("mode", settings.mode.name), ("field_conjunction", showBool settings.fieldConjunction)]
  | parsed mode tokens => [("mode", mode.name), ("tokens", toString tokens)]
  | rejected mode fault index =>
      [("mode", mode.name), ("kind", fault.name), ("index", toString index)]
  | advance index kind text =>
      [("pos", toString index), ("kind", kind.name), ("text", text)]
  | trial index accepted => [("index", toString index), ("ok", showBool accepted)]

end Event

namespace Trace

/-- The number of tokens that were taken when some are left. -/
def taken (tokens ahead : List Token) : Nat :=
  tokens.length - ahead.length

/-- The events of taking the tokens from one index up to another. -/
def advances (tokens : List Token) (first last : Nat) : List Event :=
  ((tokens.drop first).take (last - first)).mapIdx fun offset token =>
    .advance (first + offset) token.kind token.text

/-- The events of taking the tokens from an index up to another, with trials put in where they
began. -/
def weave (tokens : List Token) (last : Nat) : Nat → List Trial → List Event
  | first, [] => advances tokens first last
  | first, trial :: rest =>
      let start := taken tokens trial.start
      advances tokens first start ++ advances tokens start (taken tokens trial.reached) ++
        .trial start trial.accepted :: weave tokens last start rest

/-- The events of reading a token list with the settings given, the outcome last. -/
def ofTokens (settings : Settings) (tokens : List Token) : List Event :=
  let reading := readQuery settings.mode.dialect
  let trials := reading.trials tokens
  match reading.run tokens with
  | .ok (_, ahead) =>
      weave tokens (taken tokens ahead) 0 trials ++ [.parsed settings.mode tokens.length]
  | .error failure =>
      weave tokens (taken tokens failure.ahead) 0 trials ++
        [.rejected settings.mode failure.cause (taken tokens failure.ahead)]

/-- The events of parsing a query. A query that cannot be cut into tokens has none. -/
def ofQuery (settings : Settings) (query : String) : List Event :=
  match tokenize query with
  | .ok tokens => ofTokens settings tokens
  | .error _ => []

end Trace

end SearchQuery
