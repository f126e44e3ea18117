import SearchQuery.Grammar.Operands
set_option autoImplicit false

/-!
# The restricted language

Words and phrases, each with an optional minus, one after another and divided into alternatives by
`OR`. Every token that is no divider is taken for the start of an item, so what the language does
not have fails at the offending token.
-/

namespace SearchQuery.Grammar.Cmis

open Reading

/-- The kinds that can begin an item. -/
def itemStarts : List TokenKind :=
  TokenKind.words ++ [.phrase, .minus]

/-- Whether the next token divides alternatives: the symbol always, the keyword when an item can
begin after it. -/
def dividerAhead : List Token → Bool
  | [] => false
  | token :: rest => token.kind == .barBar || (token.kind == .or && nextIn itemStarts rest)

/-- The link by which the next item is attached. Only the end has none. -/
def linkAhead? (tokens : List Token) : Option Link :=
  if dividerAhead tokens then some .or
  else if tokens.isEmpty then none
  else some .adjacent

def test : Reading Test :=
  within .cmisTest do
    look fun tokens =>
      if nextIn TokenKind.words tokens then do
        let word ← takeOneOf TokenKind.termWords
        return .term word none none
      else if nextIs .phrase tokens then do
        let text ← take .phrase
        return .phrase text none none
      else
        fail .noViableAlternative (TokenKind.words ++ [.phrase])

/-- An item: a test with an optional minus. -/
def item (link : Link) : Reading Operand :=
  within .cmisOperand do
    let sign ← look fun tokens =>
      if nextIs .minus tokens then do
        advance
        return Sign.exclude
      else
        return Sign.none
    let test ← test
    return .mk link sign (.test test) none

/-- Fails at the end and at a divider. -/
def requireItem : Reading Unit :=
  look fun tokens =>
    if tokens.isEmpty || dividerAhead tokens then fail .emptyRequiredRepetition itemStarts
    else return ()

/-- The items that follow an item. At most as many as given are read. -/
def laterItems : Nat → Reading (List Operand)
  | 0 => return []
  | limit + 1 =>
      look fun tokens =>
        match linkAhead? tokens with
        | none => return []
        | some link => do
            takeLink link
            let next ← within .cmisConjunction do
              requireItem
              item link
            let rest ← laterItems limit
            return next :: rest

def items : Reading (List Operand) :=
  within .cmisDisjunction do
    let first ← within .cmisConjunction do
      requireItem
      item .opening
    let rest ← look fun tokens => laterItems tokens.length
    return first :: rest

/-- A whole query of the restricted language. -/
def query : Reading (List Operand) :=
  within .cmisQuery do
    let items ← items
    atEnd
    return items

end SearchQuery.Grammar.Cmis
