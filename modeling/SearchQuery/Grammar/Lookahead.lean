import SearchQuery.Query
import SearchQuery.Scope
set_option autoImplicit false

/-!
# Looking ahead

What the grammar decides by the kinds of the next one or two tokens. The sets of kinds are lists,
because diagnostics show them in order.
-/

namespace SearchQuery.Grammar

def nextIn (kinds : List TokenKind) : List Token → Bool
  | [] => false
  | token :: _ => kinds.contains token.kind

def nextIs (kind : TokenKind) : List Token → Bool
  | [] => false
  | token :: _ => token.kind == kind

/-- The kinds that sign an operand. -/
def signs : List TokenKind :=
  [.not, .exclamation, .plus, .bar, .minus]

/-- The kinds that can begin a test in a scope. -/
def testStarts : Scope → List TokenKind
  | .query =>
      TokenKind.termWords ++
        [.phrase, .equals, .tilde, .lsquare, .lt, .lparen, .atSign, .uri, .percent]
  | .fieldGroup => TokenKind.termWords ++ [.phrase, .equals, .tilde, .lsquare, .lt, .lparen]

/-- The kinds that can begin an operand in a scope. -/
def operandStarts (scope : Scope) : List TokenKind :=
  signs ++ testStarts scope

/-- The link by which the next operand is attached, if there is one. The symbols are operators
always; a keyword is one when an operand can begin after it, and is a word otherwise. -/
def linkAhead? (scope : Scope) : List Token → Option Link
  | [] => none
  | token :: rest =>
      if token.kind = .ampAmp then some .and
      else if token.kind = .and ∧ nextIn (operandStarts scope) rest = true then some .and
      else if token.kind = .barBar then some .or
      else if token.kind = .or ∧ nextIn (operandStarts scope) rest = true then some .or
      else if token.kind ∈ operandStarts scope then some .adjacent
      else none

def signAhead : List Token → Sign
  | [] => .none
  | token :: _ =>
      match token.kind with
      | .not | .exclamation => .negation
      | .plus => .mandatory
      | .bar => .optional
      | .minus => .exclude
      | _ => .none

/-- Whether the next tokens are `~` and a number. -/
def numericSuffixAhead : List Token → Bool
  | tilde :: number :: _ => tilde.kind == .tilde && number.kind.isNumber
  | _ => false

/-- Whether two suffixes of `~` and a number follow each other without a gap. -/
def stackedSuffixAhead : List Token → Bool
  | _ :: number :: next :: rest => next.start == number.stop && numericSuffixAhead (next :: rest)
  | _ => false

/-- The shapes of a test that need no field in front. -/
inductive TestShape where
  | term
  | phrase
  | exact
  | synonym
  | range
  | group
  | template
deriving DecidableEq, Repr

/-- The shape of the test that begins here. Before two points, a word or phrase is a bound. -/
def testShape? (scope : Scope) : List Token → Option TestShape
  | [] => none
  | token :: rest =>
      let beforeDots := nextIs .dotDot rest
      if token.kind.isWord && !beforeDots then some .term
      else
        match token.kind with
        | .equals => some .exact
        | .star | .questionMark => some .term
        | .phrase => if beforeDots then some .range else some .phrase
        | .tilde => some .synonym
        | .lsquare | .lt => some .range
        | .lparen => some .group
        | .percent => if scope = .query then some .template else none
        | kind => if kind.isRangeBound then some .range else none

/-- The shapes of what follows a field and a colon. -/
inductive ValueShape where
  | group
  | range
  | word
  | phrase
deriving DecidableEq, Repr

/-- The kinds that can begin what follows a field and a colon. -/
def valueStarts : List TokenKind :=
  TokenKind.termWords ++ [.phrase, .lparen, .lsquare, .lt]

/-- The shape of what follows a field and a colon. -/
def valueShape? : List Token → Option ValueShape
  | [] => none
  | token :: rest =>
      let beforeDots := nextIs .dotDot rest
      if token.kind = .lparen then some .group
      else if token.kind = .lsquare ∨ token.kind = .lt then some .range
      else if token.kind.isRangeBound && beforeDots then some .range
      else if (token.kind.isWord && !beforeDots) || TokenKind.wildcards.contains token.kind then
        some .word
      else if token.kind = .phrase then some .phrase
      else none

/-- Whether a word and a star come next, so that a proximity may begin here. -/
def mayBeginProximity : List Token → Bool
  | word :: star :: _ => word.kind.isWord && star.kind == .star
  | _ => false

end SearchQuery.Grammar
