import SearchQuery.Grammar.Test
set_option autoImplicit false

/-!
# Operands

Operands are read one after another for as long as a link to another one is ahead. An operand may
hold operands in parentheses, and how deep they may nest is a number of levels that `operand` counts
down: the recursion of the grammar is the recursion on this number.
-/

namespace SearchQuery.Grammar

open Reading

/-- The number of levels that operands may nest. -/
def maxLevels : Nat := 64

/-- Fails unless an operand can begin here. -/
def requireOperand (starts : List TokenKind) : Reading Unit :=
  look fun tokens =>
    if nextIn starts tokens then return () else fail .emptyRequiredRepetition starts

/-- Takes the operator of a link that is written. -/
def takeLink : Link → Reading Unit
  | .and | .or => advance
  | .opening | .adjacent => return ()

/-- The operands that follow an operand. At most as many as given are read. -/
def laterOperands (scope : Scope) (operand : Link → Reading Operand) : Nat → Reading (List Operand)
  | 0 => return []
  | limit + 1 =>
      look fun tokens =>
        match linkAhead? scope tokens with
        | none => return []
        | some link => do
            takeLink link
            let next ← within (.conjunction scope) do
              if link ≠ .and then
                requireOperand (operandStarts scope)
              operand link
            let rest ← laterOperands scope operand limit
            return next :: rest

def operands (scope : Scope) (operand : Link → Reading Operand) : Reading (List Operand) :=
  within (.disjunction scope) do
    let first ← within (.conjunction scope) do
      requireOperand (operandStarts scope)
      operand .opening
    let rest ← look fun tokens => laterOperands scope operand tokens.length
    return first :: rest

def sign : Reading Sign :=
  look fun tokens =>
    match signAhead tokens with
    | .none => return .none
    | written => do
        advance
        return written

/-- An operand in a scope, with so many levels left. -/
def operand : Nat → Scope → Link → Reading Operand
  | 0, scope, _ => within (.operand scope) (fail .nestingTooDeep [])
  | levels + 1, scope, link =>
      within (.operand scope) do
        let sign ← sign
        let body ← test scope fun inner => operands inner (operand levels inner)
        let boost ← boost
        return .mk link sign body boost

/-- A whole query of the full language. -/
def query : Reading (List Operand) :=
  within .query do
    let operands ← operands .query (operand maxLevels .query)
    atEnd
    return operands

end SearchQuery.Grammar
