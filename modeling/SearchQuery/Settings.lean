import SearchQuery.Token.Word
import SearchQuery.Tree
import SearchQuery.Json
set_option autoImplicit false

/-!
# Settings

Two settings choose how a query is read: the mode, which fixes the dialect and how adjacent operands
of the query combine, and how adjacent operands inside a field group combine.
-/

namespace SearchQuery

/-- The full query language, or the restricted language of CMIS `contains()`. -/
inductive Dialect where
  | full
  | cmis
deriving DecidableEq, Repr

/-- The modes of a query. -/
inductive Mode where
  | cmis
  | defaultConjunction
  | defaultDisjunction
deriving DecidableEq, Repr, Inhabited

namespace Mode

def all : List Mode :=
  [cmis, defaultConjunction, defaultDisjunction]

def name : Mode → String
  | cmis => "cmis"
  | defaultConjunction => "default-conjunction"
  | defaultDisjunction => "default-disjunction"

def dialect : Mode → Dialect
  | cmis => .cmis
  | defaultConjunction | defaultDisjunction => .full

/-- The mode with exactly this name. -/
def ofName? (text : String) : Option Mode :=
  all.find? fun mode => mode.name == text

/-- The mode with this name in any case of ASCII letters. -/
def ofText? (text : String) : Option Mode :=
  all.find? fun mode => Word.eqIgnoringCase mode.name.toList text.toList

/-- What is said about a text that names no mode. -/
def unknownMessage (text : String) : String :=
  "unknown mode '" ++ text ++
    "' (expected cmis, default-conjunction or default-disjunction)"

end Mode

structure Settings where
  mode : Mode := .defaultConjunction
  fieldConjunction : Bool := true
deriving DecidableEq, Repr, Inhabited

namespace Settings

/-- The settings that hold when nothing else is said. -/
def standard : Settings := {}

/-- The mode that a JSON value names: its name, or an object whose only member has the name as key
and null as value. -/
def modeOfJson? : Json → Option Mode
  | .string text => Mode.ofName? text
  | .object [(key, .null)] => Mode.ofName? key
  | _ => none

def boolOfJson? : Json → Option Bool
  | .bool value => some value
  | _ => none

/-- Reads a value that may be absent: absent gives the fallback, present must be readable. -/
def orElse {α : Type} (fallback : α) (read? : Json → Option α) : Option Json → Option α
  | none => some fallback
  | some value => read? value

/-- Settings from their data form: an object with members that may be absent, where other members
are ignored, or an array that gives the values by position and may be shorter, but not longer. -/
def ofJson? : Json → Option Settings
  | .object members => do
      let mode ← orElse standard.mode modeOfJson? (members.lookup "mode")
      let fieldConjunction ← orElse standard.fieldConjunction boolOfJson?
        (members.lookup "default_field_conjunction")
      return ⟨mode, fieldConjunction⟩
  | .array items =>
      if 2 < items.length then none
      else do
        let mode ← orElse standard.mode modeOfJson? items[0]?
        let fieldConjunction ← orElse standard.fieldConjunction boolOfJson? items[1]?
        return ⟨mode, fieldConjunction⟩
  | _ => none

end Settings

end SearchQuery
