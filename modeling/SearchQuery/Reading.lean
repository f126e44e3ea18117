import SearchQuery.Query
import SearchQuery.Scope
set_option autoImplicit false

/-!
# Readings

A reading takes tokens off the front of a list and yields a value, or fails. It is a function of the
tokens that are left and of nothing else: the place of a failure is the list of tokens that were
left when it arose, and `Failure.rules` grows while the failure passes out of the rules that were
active.

A reading can try another one and learn whether it would succeed. A trial changes nothing, since it
returns no list of tokens. So that trials can be logged all the same, a reading comes with a second
function, which lists the trials it makes. Nothing that `run` yields depends on `trials`.
-/

namespace SearchQuery

/-- The rules of the grammar. Those of operands exist in both scopes. -/
inductive Rule where
  | query
  | disjunction (scope : Scope)
  | conjunction (scope : Scope)
  | operand (scope : Scope)
  | test (scope : Scope)
  | group (scope : Scope)
  | term
  | phrase
  | exactTerm
  | synonym
  | fieldReference
  | fieldQualified
  | fuzzy
  | slop
  | boost
  | template
  | range
  | proximity
  | cmisQuery
  | cmisDisjunction
  | cmisConjunction
  | cmisOperand
  | cmisTest
deriving DecidableEq, Repr

def Rule.name : Rule → String
  | query => "query"
  | disjunction .query => "disjunction"
  | disjunction .fieldGroup => "field_group_disjunction"
  | conjunction .query => "conjunction"
  | conjunction .fieldGroup => "field_group_conjunction"
  | operand .query => "prefixed"
  | operand .fieldGroup => "field_group_prefixed"
  | test .query => "test"
  | test .fieldGroup => "field_group_test"
  | group .query => "group"
  | group .fieldGroup => "field_group_group"
  | term => "term"
  | phrase => "phrase"
  | exactTerm => "exact_term"
  | synonym => "synonym"
  | fieldReference => "field_reference"
  | fieldQualified => "field_qualified"
  | fuzzy => "fuzzy"
  | slop => "slop"
  | boost => "boost"
  | template => "template"
  | range => "range"
  | proximity => "proximity"
  | cmisQuery => "cmis_query"
  | cmisDisjunction => "cmis_disjunction"
  | cmisConjunction => "cmis_conjunction"
  | cmisOperand => "cmis_prefixed"
  | cmisTest => "cmis_test"

/-- The ways in which reading a query fails. -/
inductive ParseFault where
  | unexpectedExtraToken
  | missingExpectedToken
  | mismatchedToken
  | mismatchedTokenSet
  | noViableAlternative
  | emptyRequiredRepetition
  | failedModePredicate
  | nestingTooDeep
deriving DecidableEq, Repr, Inhabited

/-- A failure: its cause, the kinds that would have been accepted as far as they are known, the
tokens that were left, and the active rules from the outermost to the innermost. -/
structure Failure where
  cause : ParseFault
  expected : List TokenKind
  ahead : List Token
  rules : List Rule
deriving DecidableEq, Repr

/-- A trial: the tokens that were left when it began and when it ended, and whether it succeeded. -/
structure Trial where
  start : List Token
  reached : List Token
  accepted : Bool
deriving DecidableEq, Repr

/-- What is read from tokens, and the trials made on the way. -/
structure Reading (α : Type) where
  run : List Token → Except Failure (α × List Token)
  trials : List Token → List Trial

namespace Reading

variable {α β : Type}

def pure (value : α) : Reading α where
  run tokens := .ok (value, tokens)
  trials _ := []

def bind (first : Reading α) (next : α → Reading β) : Reading β where
  run tokens :=
    match first.run tokens with
    | .ok (value, rest) => (next value).run rest
    | .error failure => .error failure
  trials tokens :=
    first.trials tokens ++
      match first.run tokens with
      | .ok (value, rest) => (next value).trials rest
      | .error _ => []

instance : Monad Reading where
  pure := Reading.pure
  bind := Reading.bind

/-- A reading that is chosen by the tokens ahead. -/
def look (choose : List Token → Reading α) : Reading α where
  run tokens := (choose tokens).run tokens
  trials tokens := (choose tokens).trials tokens

def fail (cause : ParseFault) (expected : List TokenKind) : Reading α where
  run tokens := .error ⟨cause, expected, tokens, []⟩
  trials _ := []

def within (rule : Rule) (inner : Reading α) : Reading α where
  run tokens :=
    match inner.run tokens with
    | .ok result => .ok result
    | .error failure => .error { failure with rules := rule :: failure.rules }
  trials := inner.trials

/-- Whether a reading would succeed here. Takes no token. -/
def wouldSucceed (inner : Reading α) : Reading Bool where
  run tokens :=
    match inner.run tokens with
    | .ok _ => .ok (true, tokens)
    | .error _ => .ok (false, tokens)
  trials tokens :=
    inner.trials tokens ++
      match inner.run tokens with
      | .ok (_, rest) => [⟨tokens, rest, true⟩]
      | .error failure => [⟨tokens, failure.ahead, false⟩]

/-- Takes the next token, which has been looked at before. -/
def advance : Reading Unit where
  run
    | [] => .error ⟨.noViableAlternative, [], [], []⟩
    | _ :: rest => .ok ((), rest)
  trials _ := []

/-- Takes a token whose kind is one of several. -/
def takeOneOf (kinds : List TokenKind) : Reading (Leaf kinds) where
  run
    | [] => .error ⟨.mismatchedTokenSet, kinds, [], []⟩
    | token :: rest =>
        if member : token.kind ∈ kinds then .ok (⟨token.kind, token.text, member⟩, rest)
        else .error ⟨.mismatchedTokenSet, kinds, token :: rest, []⟩
  trials _ := []

/-- Takes a token of one kind. That the tokens are at an end is a fault of its own. -/
def take (kind : TokenKind) : Reading (Leaf [kind]) where
  run
    | [] => .error ⟨.missingExpectedToken, [kind], [], []⟩
    | token :: rest =>
        if member : token.kind ∈ [kind] then .ok (⟨token.kind, token.text, member⟩, rest)
        else .error ⟨.mismatchedToken, [kind], token :: rest, []⟩
  trials _ := []

/-- Fails unless every token has been taken. -/
def atEnd : Reading Unit where
  run
    | [] => .ok ((), [])
    | token :: rest => .error ⟨.unexpectedExtraToken, [], token :: rest, []⟩
  trials _ := []

@[simp]
theorem run_pure (value : α) (tokens : List Token) :
    (Pure.pure value : Reading α).run tokens = .ok (value, tokens) := rfl

theorem run_bind (first : Reading α) (next : α → Reading β) (tokens : List Token) :
    (first >>= next).run tokens =
      match first.run tokens with
      | .ok (value, rest) => (next value).run rest
      | .error failure => .error failure := rfl

@[simp]
theorem run_look (choose : List Token → Reading α) (tokens : List Token) :
    (look choose).run tokens = (choose tokens).run tokens := rfl

@[simp]
theorem run_fail (cause : ParseFault) (expected : List TokenKind) (tokens : List Token) :
    (fail cause expected : Reading α).run tokens = .error ⟨cause, expected, tokens, []⟩ := rfl

/-- Being part of a rule changes no success. -/
theorem run_within_eq_ok_iff (rule : Rule) (inner : Reading α) (tokens : List Token)
    (result : α × List Token) :
    (within rule inner).run tokens = .ok result ↔ inner.run tokens = .ok result := by
  simp only [within]
  cases inner.run tokens <;> simp

/-- A trial takes no token and never fails. -/
theorem run_wouldSucceed (inner : Reading α) (tokens : List Token) :
    (wouldSucceed inner).run tokens = .ok ((inner.run tokens).isOk, tokens) := by
  simp only [wouldSucceed]
  cases inner.run tokens <;> rfl

end Reading

end SearchQuery
