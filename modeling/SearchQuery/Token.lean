set_option autoImplicit false

/-!
# Tokens

The kinds of token that a query is cut into, and tokens: a kind, the text as written, and the byte
offsets at which the text starts and stops. Nothing relates the three parts of a token to each
other here; that is a property of the tokens that `Token.scan` yields.

Keyword tokens (`and`, `or`, `not`, `to`) are words as well: whether one acts as an operator depends
on what follows it.
-/

namespace SearchQuery

inductive TokenKind where
  | id
  | word
  | prefixWord
  | wildWord
  | phrase
  | integer
  | float
  | uri
  | and
  | or
  | not
  | upTo
  | plus
  | bar
  | barBar
  | minus
  | lparen
  | rparen
  | colon
  | equals
  | tilde
  | caret
  | lsquare
  | rsquare
  | lt
  | gt
  | dotDot
  | star
  | questionMark
  | atSign
  | percent
  | comma
  | amp
  | ampAmp
  | exclamation
deriving DecidableEq, Repr, Inhabited

namespace TokenKind

def all : List TokenKind :=
  [id, word, prefixWord, wildWord, phrase, integer, float, uri, and, or, not, upTo, plus, bar,
    barBar, minus, lparen, rparen, colon, equals, tilde, caret, lsquare, rsquare, lt, gt, dotDot,
    star, questionMark, atSign, percent, comma, amp, ampAmp, exclamation]

/-- The name that diagnostics and trees show. -/
def name : TokenKind → String
  | id => "ID"
  | word => "WORD"
  | prefixWord => "PREFIX_WORD"
  | wildWord => "WILD_WORD"
  | phrase => "PHRASE_LITERAL"
  | integer => "INTEGER"
  | float => "FLOAT"
  | uri => "URI"
  | and => "AND"
  | or => "OR"
  | not => "NOT"
  | upTo => "TO"
  | plus => "PLUS"
  | bar => "BAR"
  | barBar => "BARBAR"
  | minus => "MINUS"
  | lparen => "LPAREN"
  | rparen => "RPAREN"
  | colon => "COLON"
  | equals => "EQUALS"
  | tilde => "TILDE"
  | caret => "CARET"
  | lsquare => "LSQUARE"
  | rsquare => "RSQUARE"
  | lt => "LT"
  | gt => "GT"
  | dotDot => "DOTDOT"
  | star => "STAR"
  | questionMark => "QUESTION_MARK"
  | atSign => "AT"
  | percent => "PERCENT"
  | comma => "COMMA"
  | amp => "AMP"
  | ampAmp => "AMPAMP"
  | exclamation => "EXCLAMATION"

/-- The name in the data form of a token. -/
def label : TokenKind → String
  | id => "Id"
  | word => "Word"
  | prefixWord => "PrefixWord"
  | wildWord => "WildWord"
  | phrase => "Phrase"
  | integer => "Integer"
  | float => "Float"
  | uri => "Uri"
  | and => "And"
  | or => "Or"
  | not => "Not"
  | upTo => "To"
  | plus => "Plus"
  | bar => "Bar"
  | barBar => "BarBar"
  | minus => "Minus"
  | lparen => "LParen"
  | rparen => "RParen"
  | colon => "Colon"
  | equals => "Equals"
  | tilde => "Tilde"
  | caret => "Caret"
  | lsquare => "LSquare"
  | rsquare => "RSquare"
  | lt => "Lt"
  | gt => "Gt"
  | dotDot => "DotDot"
  | star => "Star"
  | questionMark => "QuestionMark"
  | atSign => "At"
  | percent => "Percent"
  | comma => "Comma"
  | amp => "Amp"
  | ampAmp => "AmpAmp"
  | exclamation => "Exclamation"

def ofName? (text : String) : Option TokenKind :=
  all.find? fun kind => kind.name == text

/-- Kinds that can be searched for as a word, keywords included. -/
def words : List TokenKind :=
  [id, word, prefixWord, wildWord, integer, float, and, or, not, upTo]

def rangeBounds : List TokenKind :=
  [id, word, phrase, integer, float]

def numbers : List TokenKind :=
  [integer, float]

def isWord (kind : TokenKind) : Bool :=
  words.contains kind

def isRangeBound (kind : TokenKind) : Bool :=
  rangeBounds.contains kind

def isNumber (kind : TokenKind) : Bool :=
  numbers.contains kind

theorem mem_all (kind : TokenKind) : kind ∈ all := by
  cases kind <;> decide

/-- A kind can be found again by its name. -/
theorem ofName?_name (kind : TokenKind) : ofName? kind.name = some kind := by
  cases kind <;> decide

end TokenKind

/-- A token: its kind, its text as written, and the byte offsets of its start and its stop. -/
structure Token where
  kind : TokenKind
  text : String
  start : Nat
  stop : Nat
deriving DecidableEq, Repr, Inhabited

end SearchQuery
