import SearchQuery.Grammar.Lookahead
import SearchQuery.Reading
set_option autoImplicit false

/-!
# Field references

A field is named by `"@"? (uri | word ":")? word`. Whether `a:b` is a qualified name or a name and
what is looked for in it can only be told by what follows, so each reading is tried.
-/

namespace SearchQuery.Grammar

open Reading

/-- Takes the next token if it has a kind. -/
def skip (kind : TokenKind) : Reading Unit :=
  look fun tokens => if nextIs kind tokens then advance else return ()

/-- A field reference, with a qualifying word or without one. -/
def fieldReference (qualified : Bool) : Reading FieldReference :=
  within .fieldReference do
    skip .atSign
    look fun tokens =>
      if nextIs .uri tokens then do
        let uri ← take .uri
        let name ← take .id
        return ⟨some (.nameSpace uri), name⟩
      else if qualified then do
        let word ← take .id
        let _ ← take .colon
        let name ← take .id
        return ⟨some (.word word), name⟩
      else do
        let name ← take .id
        return ⟨none, name⟩

/-- A field reference, with a qualifying word where that can be read. -/
def anyFieldReference : Reading FieldReference := do
  let qualified ← wouldSucceed (fieldReference true)
  fieldReference qualified

def fieldQualifier (qualified : Bool) : Reading FieldReference := do
  let field ← fieldReference qualified
  let _ ← take .colon
  return field

/-- Which reading of a field and a colon begins here, if any. -/
def fieldQualifierForm : Reading (Option Bool) := do
  if ← wouldSucceed (fieldQualifier true) then
    return some true
  else if ← wouldSucceed (fieldQualifier false) then
    return some false
  else
    return none

/-- A field and a colon where a scope allows them and they can be read. -/
def optionalFieldQualifier : Scope → Reading (Option FieldReference)
  | .fieldGroup => return none
  | .query => do
      match ← fieldQualifierForm with
      | some qualified => return some (← fieldQualifier qualified)
      | none => return none

end SearchQuery.Grammar
