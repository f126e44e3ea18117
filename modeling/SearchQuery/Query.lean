import SearchQuery.Token
set_option autoImplicit false

/-!
# Queries as they are written

The reading of a query is a list of operands in source order. Each operand records its *link*, that
is how it is attached to the operand before it, and no grouping of operands is decided here: the
same operands are read whatever the default connectives are, and only `Operand.toNode` arranges
them.

Leaves keep the kind and the text of their token and forget its place. The kinds that a leaf may
have are part of its type.
-/

namespace SearchQuery

/-- The kind and the text of a token whose kind is one of the given ones. -/
structure Leaf (kinds : List TokenKind) where
  kind : TokenKind
  text : String
  kind_mem : kind ∈ kinds
deriving DecidableEq, Repr

namespace TokenKind

def wildcards : List TokenKind :=
  [star, questionMark]

/-- Kinds that a term may search for. -/
def termWords : List TokenKind :=
  words ++ wildcards

def rangeClosers : List TokenKind :=
  [rsquare, gt]

end TokenKind

abbrev TermWord := Leaf TokenKind.termWords

abbrev PlainWord := Leaf TokenKind.words

abbrev PhraseText := Leaf [TokenKind.phrase]

abbrev RangeBound := Leaf TokenKind.rangeBounds

abbrev Number := Leaf TokenKind.numbers

abbrev WholeNumber := Leaf [TokenKind.integer]

abbrev Identifier := Leaf [TokenKind.id]

abbrev NamespaceUri := Leaf [TokenKind.uri]

/-- What a field name is looked up in. -/
inductive Qualifier where
  | word (name : Identifier)
  | nameSpace (uri : NamespaceUri)
deriving DecidableEq, Repr

/-- A field name with an optional qualifier. -/
structure FieldReference where
  qualifier : Option Qualifier
  name : Identifier
deriving DecidableEq, Repr

/-- Whether a range contains its bound. -/
inductive Closure where
  | inclusive
  | exclusive
deriving DecidableEq, Repr

inductive Test where
  | term (word : TermWord) (field : Option FieldReference) (fuzziness : Option Number)
  | exactTerm (word : TermWord) (field : Option FieldReference) (fuzziness : Option Number)
  | synonym (word : TermWord) (field : Option FieldReference) (fuzziness : Option Number)
  | phrase (text : PhraseText) (field : Option FieldReference) (slop : Option WholeNumber)
  | exactPhrase (text : PhraseText) (field : Option FieldReference) (slop : Option WholeNumber)
  | range (lower : Closure) (low high : RangeBound) (upper : Closure)
  | proximity (first : PlainWord) (steps : List (Option WholeNumber × PlainWord))
  | template (fields : List FieldReference)
deriving DecidableEq, Repr

/-- How an operand is attached to the one before it. The first operand opens its list. -/
inductive Link where
  | opening
  | adjacent
  | and
  | or
deriving DecidableEq, Repr

inductive Sign where
  | none
  | negation
  | mandatory
  | optional
  | exclude
deriving DecidableEq, Repr

mutual
/-- One operand: its link, its sign, what it tests, and its boost. -/
inductive Operand where
  | mk (link : Link) (sign : Sign) (body : Body) (boost : Option Number)

/-- What an operand applies to: a test, operands in parentheses, or a field group. -/
inductive Body where
  | test (test : Test)
  | group (operands : List Operand)
  | fieldGroup (field : FieldReference) (operands : List Operand)
end

/-- The single operand that a test without sign and boost makes. -/
def Operand.ofTest (test : Test) : Operand :=
  .mk .opening .none (.test test) none

end SearchQuery
