import SearchQuery.Scope
import SearchQuery.Token
set_option autoImplicit false

/-!
# Labelled trees

A query is shown as a tree of labelled nodes. Fourteen labels, the *forms*, exist in two *scopes*:
for the query itself and for the inside of a field group. The remaining labels stand for parts of
tests and for tokens.

`Node` admits every combination of label, children and literal. The trees of accepted queries are
far more regular, and that is a property of `Operand.toNode`, not of this type.
-/

namespace SearchQuery

/-- The labels that exist in both scopes: operators and tests. -/
inductive Form where
  | disjunction
  | conjunction
  | negation
  | default
  | mandatory
  | optional
  | exclude
  | term
  | exactTerm
  | exactPhrase
  | phrase
  | synonym
  | range
  | proximity
deriving DecidableEq, Repr, Inhabited

namespace Form

def all : List Form :=
  [disjunction, conjunction, negation, default, mandatory, optional, exclude, term, exactTerm,
    exactPhrase, phrase, synonym, range, proximity]

def name : Form → String
  | disjunction => "DISJUNCTION"
  | conjunction => "CONJUNCTION"
  | negation => "NEGATION"
  | default => "DEFAULT"
  | mandatory => "MANDATORY"
  | optional => "OPTIONAL"
  | exclude => "EXCLUDE"
  | term => "TERM"
  | exactTerm => "EXACT_TERM"
  | exactPhrase => "EXACT_PHRASE"
  | phrase => "PHRASE"
  | synonym => "SYNONYM"
  | range => "RANGE"
  | proximity => "PROXIMITY"

/-- Whether a form combines or prefixes operands; the other forms are tests. -/
def isOperator : Form → Bool
  | disjunction | conjunction | negation | default | mandatory | optional | exclude => true
  | term | exactTerm | exactPhrase | phrase | synonym | range | proximity => false

theorem mem_all (form : Form) : form ∈ all := by
  cases form <;> decide

end Form

inductive NodeKind where
  | form (scope : Scope) (form : Form)
  | fieldGroup
  | template
  | fieldRef
  | qualifierWord
  | nameSpace
  | boost
  | fuzzy
  | inclusive
  | exclusive
  | distance
  | token (kind : TokenKind)
deriving DecidableEq, Repr, Inhabited

namespace NodeKind

/-- The name that trees show. Inside a field group, operators and tests have prefixes of their
own. -/
def name : NodeKind → String
  | form .query role => role.name
  | form .fieldGroup role => (if role.isOperator then "FIELD_" else "FG_") ++ role.name
  | fieldGroup => "FIELD_GROUP"
  | template => "TEMPLATE"
  | fieldRef => "FIELD_REF"
  | qualifierWord => "PREFIX"
  | nameSpace => "NAME_SPACE"
  | boost => "BOOST"
  | fuzzy => "FUZZY"
  | inclusive => "INCLUSIVE"
  | exclusive => "EXCLUSIVE"
  | distance => "DISTANCE"
  | token kind => kind.name

/-- Whether a label belongs to the inside of a field group. -/
def isFieldScoped : NodeKind → Bool
  | form .fieldGroup _ => true
  | _ => false

/-- The labels that are no token kinds, each once. -/
def structural : List NodeKind :=
  Form.all.map (form .query) ++ Form.all.map (form .fieldGroup) ++
    [fieldGroup, template, fieldRef, qualifierWord, nameSpace, boost, fuzzy, inclusive, exclusive,
      distance]

/-- The label with a given name; token kinds come last. -/
def ofName? (text : String) : Option NodeKind :=
  match structural.find? fun kind => kind.name == text with
  | some kind => some kind
  | none => (TokenKind.ofName? text).map token

/-- A label can be found again by its name. -/
theorem ofName?_name (kind : NodeKind) : ofName? kind.name = some kind := by
  cases kind with
  | form scope role => cases scope <;> cases role <;> decide
  | token kind => cases kind <;> decide
  | _ => decide

theorem name_injective : Function.Injective name := by
  intro kind other same
  have found := ofName?_name kind
  rw [same, ofName?_name] at found
  exact (Option.some.inj found).symm

end NodeKind

inductive Node where
  | mk (kind : NodeKind) (children : List Node) (literal : Option String)
deriving Repr, Inhabited

namespace Node

def kind : Node → NodeKind
  | mk kind _ _ => kind

def children : Node → List Node
  | mk _ children _ => children

def literal : Node → Option String
  | mk _ _ literal => literal

/-- A node with children and without text. -/
def branch (kind : NodeKind) (children : List Node) : Node :=
  mk kind children none

/-- A node without children and text. -/
def marker (kind : NodeKind) : Node :=
  mk kind [] none

def leaf (kind : TokenKind) (text : String) : Node :=
  mk (.token kind) [] (some text)

/-- The first child with a label. -/
def find? (node : Node) (kind : NodeKind) : Option Node :=
  node.children.find? fun child => child.kind == kind

/-- The text of a node: its own, or that of its first child. -/
def text? (node : Node) : Option String :=
  match node.literal with
  | some text => some text
  | none => node.children.head?.bind literal

end Node

end SearchQuery
