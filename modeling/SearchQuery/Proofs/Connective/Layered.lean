import SearchQuery.Parse
import SearchQuery.Proofs.Tree.Nodes
set_option autoImplicit false

/-!
# The layered grammar

The grammar of the full language as two nested loops, one for the conjunctions of a disjunction and
one for the operands of a conjunction. Adjacent operands are taken by the inner loop where they are
conjoined, and by the outer loop where they are disjoined, so the connective of a scope decides
which loop meets which operator. The tree is built on the way. The tests themselves, their suffixes
and the trials for fields are those of `Grammar`.
-/

namespace SearchQuery.Layered

open Reading Grammar

/-!
## Loops
-/

section

variable {α : Type}

/-- Items for as long as one is ahead. At most as many as given are read. -/
def many (ahead? : List Token → Option (Reading α)) : Nat → Reading (List α)
  | 0 => return []
  | limit + 1 =>
      look fun tokens =>
        match ahead? tokens with
        | none => return []
        | some item => do
            let next ← item
            let rest ← many ahead? limit
            return next :: rest

/-- Items for as long as one is ahead. No more than one is read for each token. -/
def manyHere (ahead? : List Token → Option (Reading α)) : Reading (List α) :=
  look fun tokens => many ahead? tokens.length

end

/-!
## Operators
-/

/-- Whether an operator that disjoins is next: the symbol always, the keyword before an operand. -/
def disjoinsAhead (scope : Scope) : List Token → Bool
  | [] => false
  | token :: rest =>
      token.kind == .barBar || (token.kind == .or && nextIn (operandStarts scope) rest)

/-- Whether an operator that conjoins is next: the symbol always, the keyword before an operand. -/
def conjoinsAhead (scope : Scope) : List Token → Bool
  | [] => false
  | token :: rest =>
      token.kind == .ampAmp || (token.kind == .and && nextIn (operandStarts scope) rest)

def conjunctAhead? (conjoins : Bool) (scope : Scope) (operand : Reading Node)
    (tokens : List Token) : Option (Reading Node) :=
  if conjoinsAhead scope tokens then
    some do
      advance
      operand
  else if conjoins && !disjoinsAhead scope tokens && nextIn (operandStarts scope) tokens then
    some operand
  else
    none

def conjunction (conjoins : Bool) (scope : Scope) (operand : Reading Node) : Reading Node :=
  within (.conjunction scope) do
    requireOperand (operandStarts scope)
    let first ← operand
    let later ← manyHere (conjunctAhead? conjoins scope operand)
    return Node.branch (.form scope .conjunction) (first :: later)

def alternativeAhead? (conjoins : Bool) (scope : Scope) (operand : Reading Node)
    (tokens : List Token) : Option (Reading Node) :=
  if disjoinsAhead scope tokens then
    some do
      advance
      conjunction conjoins scope operand
  else if !conjoins && nextIn (operandStarts scope) tokens then
    some (conjunction conjoins scope operand)
  else
    none

/-- A disjunction of its conjunctions. Where adjacent operands are conjoined, one conjunction stands
for itself. -/
def alternatives (conjoins : Bool) (scope : Scope) : List Node → Node
  | [conjunction] =>
      if conjoins then conjunction else Node.branch (.form scope .disjunction) [conjunction]
  | conjunctions => Node.branch (.form scope .disjunction) conjunctions

def disjunction (conjoins : Bool) (scope : Scope) (operand : Reading Node) : Reading Node :=
  within (.disjunction scope) do
    let first ← conjunction conjoins scope operand
    let later ← manyHere (alternativeAhead? conjoins scope operand)
    return alternatives conjoins scope (first :: later)

/-!
## Tests and operands
-/

def group (scope : Scope) (inner : Reading Node) : Reading Node :=
  within (.group scope) do
    let _ ← take .lparen
    let inner ← inner
    let _ ← take .rparen
    return inner

/-- The body that a field group with this only test has. -/
def soleTest (conjoins : Bool) (test : Test) : Node :=
  let default := Node.branch (.form .fieldGroup .default) [test.toNode .fieldGroup]
  alternatives conjoins .fieldGroup [Node.branch (.form .fieldGroup .conjunction) [default]]

def fieldValue (conjoins : Bool) (field : FieldReference) (disjunction : Scope → Reading Node) :
    Reading Node := do
  let shape ← look fun tokens => return valueShape? tokens
  match shape with
  | some .group => do
      let body ← group .fieldGroup (disjunction .fieldGroup)
      return Node.branch .fieldGroup [field.toNode, body]
  | some .range => do
      let test ← range
      return Node.branch .fieldGroup [field.toNode, soleTest conjoins test]
  | _ =>
      if ← proximityAhead then do
        let test ← proximity
        return Node.branch .fieldGroup [field.toNode, soleTest conjoins test]
      else
        match shape with
        | some .word => do
            let word ← takeOneOf TokenKind.termWords
            let fuzziness ← fuzziness
            return (Test.term word (some field) fuzziness).toNode .query
        | some .phrase => do
            let text ← take .phrase
            let slop ← slop
            return (Test.phrase text (some field) slop).toNode .query
        | _ => look fun tokens =>
            fail .noViableAlternative (if tokens.isEmpty then [] else valueStarts)

def plainTest (scope : Scope) (disjunction : Scope → Reading Node) : Reading Node :=
  look fun tokens =>
    match testShape? scope tokens with
    | some .term => return (← term).toNode scope
    | some .phrase => return (← phrase).toNode scope
    | some .exact => return (← exactTest scope).toNode scope
    | some .synonym => return (← synonym scope).toNode scope
    | some .range => return (← range).toNode scope
    | some .group => group scope (disjunction scope)
    | some .template => return (← template).toNode scope
    | none => fail .noViableAlternative (testStarts scope)

/-- A test, where adjacent operands of a field group are conjoined or not. -/
def test (conjoins : Bool) (scope : Scope) (disjunction : Scope → Reading Node) : Reading Node :=
  within (.test scope) do
    if ← proximityAhead then
      return (← proximity).toNode scope
    else
      match ← testQualifierForm scope with
      | some qualified =>
          within .fieldQualified do
            let field ← fieldQualifier qualified
            fieldValue conjoins field disjunction
      | none => plainTest scope disjunction

/-- An operand in a scope, with so many levels left. -/
def operand (settings : Settings) : Nat → Scope → Reading Node
  | 0, scope => within (.operand scope) (fail .nestingTooDeep [])
  | levels + 1, scope =>
      within (.operand scope) do
        let sign ← sign
        let body ← test (settings.conjoins .fieldGroup) scope fun inner =>
          disjunction (settings.conjoins inner) inner (operand settings levels inner)
        let boost ← boost
        return Node.branch (.form scope sign.form)
          (body :: boost.toList.map fun factor => Node.branch .boost [factor.toNode])

def query (settings : Settings) : Reading Node :=
  within .query do
    let tree ← disjunction (settings.conjoins .query) .query (operand settings maxLevels .query)
    atEnd
    return tree

def parseTokens (settings : Settings) (tokens : List Token) : Except ParseError Node :=
  match (query settings).run tokens with
  | .ok (tree, _) => .ok tree
  | .error failure => .error (failure.locate tokens)

end SearchQuery.Layered
