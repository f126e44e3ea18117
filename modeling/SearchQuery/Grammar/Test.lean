import SearchQuery.Grammar.Field
import SearchQuery.Grammar.Suffix
set_option autoImplicit false

/-!
# Tests

The readings of single tests. Those that may contain operands take the reading of operands as an
argument, for both scopes; how deep operands may nest is decided where the knot is tied.
-/

namespace SearchQuery.Grammar

open Reading

def term : Reading Test :=
  within .term do
    let word ← takeOneOf TokenKind.termWords
    let fuzziness ← fuzziness
    return .term word none fuzziness

def phrase : Reading Test :=
  within .phrase do
    let text ← take .phrase
    let slop ← slop
    return .phrase text none slop

/-- An exact word or phrase, after an equals sign. -/
def exactTest (scope : Scope) : Reading Test :=
  within .exactTerm do
    let _ ← take .equals
    let field ← optionalFieldQualifier scope
    look fun tokens =>
      if nextIs .phrase tokens then do
        let text ← take .phrase
        let slop ← slop
        return .exactPhrase text field slop
      else do
        let word ← takeOneOf TokenKind.termWords
        let fuzziness ← fuzziness
        return .exactTerm word field fuzziness

/-- A word to expand by its synonyms, after a tilde. -/
def synonym (scope : Scope) : Reading Test :=
  within .synonym do
    let _ ← take .tilde
    let field ← optionalFieldQualifier scope
    let word ← takeOneOf TokenKind.termWords
    let fuzziness ← fuzziness
    return .synonym word field fuzziness

/-- A range, either with two points between its bounds or in brackets. -/
def range : Reading Test :=
  within .range do
    look fun tokens =>
      if nextIn [.lsquare, .lt] tokens then do
        advance
        let low ← takeOneOf TokenKind.rangeBounds
        let _ ← take .upTo
        let high ← takeOneOf TokenKind.rangeBounds
        let closer ← takeOneOf TokenKind.rangeClosers
        return .range (if nextIs .lsquare tokens then .inclusive else .exclusive) low high
          (if closer.kind = .rsquare then .inclusive else .exclusive)
      else do
        let low ← takeOneOf TokenKind.rangeBounds
        let _ ← take .dotDot
        let high ← takeOneOf TokenKind.rangeBounds
        return .range .inclusive low high .inclusive

/-- The distance of a step, in parentheses; the number may be left out, and so may the whole. -/
def distance : Reading (Option WholeNumber) :=
  look fun tokens =>
    if nextIs .lparen tokens then do
      advance
      let limit ← look fun inside =>
        if nextIs .integer inside then do
          let limit ← take .integer
          return some limit
        else
          return none
      let _ ← take .rparen
      return limit
    else
      return none

/-- One step of a proximity and all that follow: a star, a distance, a word, and another step
wherever another star comes next. At most as many steps as given are read. -/
def proximitySteps : Nat → Reading (List (Option WholeNumber × PlainWord))
  | 0 => return []
  | limit + 1 => do
      let _ ← take .star
      let distance ← distance
      let word ← takeOneOf TokenKind.words
      look fun tokens =>
        if nextIs .star tokens then do
          let rest ← proximitySteps limit
          return (distance, word) :: rest
        else
          return [(distance, word)]

/-- Words near each other. A star after the last word is never left over: it must begin another
step. -/
def proximity : Reading Test :=
  within .proximity do
    let first ← takeOneOf TokenKind.words
    let steps ← look fun tokens => proximitySteps (tokens.length + 1)
    return .proximity first steps

def proximityAhead : Reading Bool :=
  look fun tokens =>
    if mayBeginProximity tokens then wouldSucceed proximity else return false

/-- The fields of a template up to the closing parenthesis or the end, a comma allowed after
each. -/
def templateFields : Nat → Reading (List FieldReference)
  | 0 => return []
  | limit + 1 => do
      let field ← anyFieldReference
      skip .comma
      look fun tokens =>
        if tokens.isEmpty || nextIs .rparen tokens then
          return [field]
        else do
          let rest ← templateFields limit
          return field :: rest

/-- A template: a percent sign and one field, or several in parentheses. -/
def template : Reading Test :=
  within .template do
    let _ ← take .percent
    look fun tokens =>
      if nextIs .lparen tokens then do
        advance
        look fun inside =>
          if nextIs .rparen inside then
            fail .emptyRequiredRepetition [.atSign, .uri, .id]
          else do
            let fields ← templateFields (inside.length + 1)
            let _ ← take .rparen
            return .template fields
      else do
        let field ← anyFieldReference
        return .template [field]

def group (scope : Scope) (operands : Reading (List Operand)) : Reading (List Operand) :=
  within (.group scope) do
    let _ ← take .lparen
    let inner ← operands
    let _ ← take .rparen
    return inner

/-- What follows a field and a colon. A range or a proximity is the field group that has it as its
only operand. -/
def fieldValue (field : FieldReference) (operands : Scope → Reading (List Operand)) :
    Reading Body := do
  let shape ← look fun tokens => return valueShape? tokens
  match shape with
  | some .group => return .fieldGroup field (← group .fieldGroup (operands .fieldGroup))
  | some .range => return .fieldGroup field [.ofTest (← range)]
  | _ =>
      if ← proximityAhead then
        return .fieldGroup field [.ofTest (← proximity)]
      else
        match shape with
        | some .word => do
            let word ← takeOneOf TokenKind.termWords
            let fuzziness ← fuzziness
            return .test (.term word (some field) fuzziness)
        | some .phrase => do
            let text ← take .phrase
            let slop ← slop
            return .test (.phrase text (some field) slop)
        | _ => look fun tokens =>
            fail .noViableAlternative (if tokens.isEmpty then [] else valueStarts)

/-- A field, a colon, and what is looked for in it. -/
def fieldQualified (qualified : Bool) (operands : Scope → Reading (List Operand)) : Reading Body :=
  within .fieldQualified do
    let field ← fieldQualifier qualified
    fieldValue field operands

/-- Which reading of a field and a colon begins a test here, if any. -/
def testQualifierForm (scope : Scope) : Reading (Option Bool) :=
  look fun tokens =>
    if scope = .query ∧ nextIn [.id, .atSign, .uri] tokens = true then fieldQualifierForm
    else return none

def plainTest (scope : Scope) (operands : Scope → Reading (List Operand)) : Reading Body :=
  look fun tokens =>
    match testShape? scope tokens with
    | some .term => return .test (← term)
    | some .phrase => return .test (← phrase)
    | some .exact => return .test (← exactTest scope)
    | some .synonym => return .test (← synonym scope)
    | some .range => return .test (← range)
    | some .group => return .group (← group scope (operands scope))
    | some .template => return .test (← template)
    | none => fail .noViableAlternative (testStarts scope)

/-- A test. A proximity is preferred to everything else, a field to a plain word. -/
def test (scope : Scope) (operands : Scope → Reading (List Operand)) : Reading Body :=
  within (.test scope) do
    if ← proximityAhead then
      return .test (← proximity)
    else
      match ← testQualifierForm scope with
      | some qualified => fieldQualified qualified operands
      | none => plainTest scope operands

end SearchQuery.Grammar
