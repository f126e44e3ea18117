import SearchQuery.Proofs.Reading
set_option autoImplicit false

/-!
# Written forms

The grammar of queries as a relation between what is read and the tokens it is written with. A
relation holds of exactly the tokens of one part of a query and looks at nothing that follows them,
so it has no say in which of two readings of the same tokens is taken, and it does not bound how
deep operands nest. Operators, signs and brackets are tokens of certain kinds; whether a keyword
acts as an operator where it stands is left open.

The restricted language is a part of the same grammar.
-/

namespace SearchQuery

/-!
## Parts of tests
-/

namespace FieldReference

/-- A field name with its qualifier, and no at sign. -/
inductive Bare : FieldReference → List Token → Prop where
  | plain {name : Identifier} {token : Token} :
      name.IsOf token → Bare ⟨none, name⟩ [token]
  | word {word name : Identifier} {first colon second : Token} :
      word.IsOf first → colon.kind = .colon → name.IsOf second →
      Bare ⟨some (.word word), name⟩ [first, colon, second]
  | nameSpace {uri : NamespaceUri} {name : Identifier} {first second : Token} :
      uri.IsOf first → name.IsOf second → Bare ⟨some (.nameSpace uri), name⟩ [first, second]

/-- A field reference. An at sign before it changes nothing. -/
inductive Written (field : FieldReference) : List Token → Prop where
  | bare {tokens : List Token} : Bare field tokens → Written field tokens
  | marked {mark : Token} {tokens : List Token} :
      mark.kind = .atSign → Bare field tokens → Written field (mark :: tokens)

/-- A field reference and the colon after it. -/
inductive Qualifying (field : FieldReference) : List Token → Prop where
  | mk {tokens : List Token} {colon : Token} :
      Written field tokens → colon.kind = .colon → Qualifying field (tokens ++ [colon])

end FieldReference

/-- The field that may stand before a word or phrase, except inside a field group. -/
inductive QualifierWritten : Scope → Option FieldReference → List Token → Prop where
  | absent {scope : Scope} : QualifierWritten scope none []
  | present {field : FieldReference} {tokens : List Token} :
      field.Qualifying tokens → QualifierWritten .query (some field) tokens

/-- A number that may follow, with a mark before it. -/
inductive SuffixWritten (mark : TokenKind) {kinds : List TokenKind} :
    Option (Leaf kinds) → List Token → Prop where
  | absent : SuffixWritten mark none []
  | present {number : Leaf kinds} {sign token : Token} :
      sign.kind = mark → number.IsOf token → SuffixWritten mark (some number) [sign, token]

def Closure.opening : Closure → TokenKind
  | inclusive => .lsquare
  | exclusive => .lt

def Closure.closing : Closure → TokenKind
  | inclusive => .rsquare
  | exclusive => .gt

namespace Test

/-- How far apart two words of a proximity may stand. -/
inductive DistanceWritten : Option WholeNumber → List Token → Prop where
  | absent : DistanceWritten none []
  | unspecified {opening closing : Token} :
      opening.kind = .lparen → closing.kind = .rparen → DistanceWritten none [opening, closing]
  | limited {limit : WholeNumber} {opening token closing : Token} :
      opening.kind = .lparen → limit.IsOf token → closing.kind = .rparen →
      DistanceWritten (some limit) [opening, token, closing]

/-- The steps of a proximity, a star before each. -/
inductive StepsWritten : List (Option WholeNumber × PlainWord) → List Token → Prop where
  | nil : StepsWritten [] []
  | cons {distance : Option WholeNumber} {word : PlainWord}
      {steps : List (Option WholeNumber × PlainWord)} {star token : Token}
      {between rest : List Token} :
      star.kind = .star → DistanceWritten distance between → word.IsOf token →
      StepsWritten steps rest →
      StepsWritten ((distance, word) :: steps) (star :: between ++ token :: rest)

/-- The fields of a template. A comma may follow each. -/
inductive FieldsWritten : List FieldReference → List Token → Prop where
  | nil : FieldsWritten [] []
  | cons {field : FieldReference} {fields : List FieldReference} {tokens rest : List Token} :
      field.Written tokens → FieldsWritten fields rest →
      FieldsWritten (field :: fields) (tokens ++ rest)
  | comma {field : FieldReference} {fields : List FieldReference} {comma : Token}
      {tokens rest : List Token} :
      field.Written tokens → comma.kind = .comma → FieldsWritten fields rest →
      FieldsWritten (field :: fields) (tokens ++ comma :: rest)

inductive RangeWritten : Test → List Token → Prop where
  | dotted {low high : RangeBound} {first dots second : Token} :
      low.IsOf first → dots.kind = .dotDot → high.IsOf second →
      RangeWritten (.range .inclusive low high .inclusive) [first, dots, second]
  | bracketed {lower upper : Closure} {low high : RangeBound}
      {opening first upTo second closing : Token} :
      opening.kind = lower.opening → low.IsOf first → upTo.kind = .upTo → high.IsOf second →
      closing.kind = upper.closing →
      RangeWritten (.range lower low high upper) [opening, first, upTo, second, closing]

/-- A proximity. It has two words at least. -/
inductive ProximityWritten : Test → List Token → Prop where
  | mk {first : PlainWord} {steps : List (Option WholeNumber × PlainWord)} {token : Token}
      {rest : List Token} :
      first.IsOf token → StepsWritten steps rest → steps ≠ [] →
      ProximityWritten (.proximity first steps) (token :: rest)

/-- A range or a proximity. Either stands for itself after a field. -/
inductive SpanWritten (test : Test) (tokens : List Token) : Prop where
  | range : RangeWritten test tokens → SpanWritten test tokens
  | proximity : ProximityWritten test tokens → SpanWritten test tokens

/-- A test in a scope, with the field that its word or phrase is looked for in. -/
inductive Written : Scope → Test → List Token → Prop where
  | term {scope : Scope} {word : TermWord} {field : Option FieldReference}
      {fuzziness : Option Number} {token : Token} {qualifier suffix : List Token} :
      QualifierWritten scope field qualifier → word.IsOf token →
      SuffixWritten .tilde fuzziness suffix →
      Written scope (.term word field fuzziness) (qualifier ++ token :: suffix)
  | phrase {scope : Scope} {text : PhraseText} {field : Option FieldReference}
      {slop : Option WholeNumber} {token : Token} {qualifier suffix : List Token} :
      QualifierWritten scope field qualifier → text.IsOf token →
      SuffixWritten .tilde slop suffix →
      Written scope (.phrase text field slop) (qualifier ++ token :: suffix)
  | exactTerm {scope : Scope} {word : TermWord} {field : Option FieldReference}
      {fuzziness : Option Number} {equals token : Token} {qualifier suffix : List Token} :
      equals.kind = .equals → QualifierWritten scope field qualifier → word.IsOf token →
      SuffixWritten .tilde fuzziness suffix →
      Written scope (.exactTerm word field fuzziness) (equals :: qualifier ++ token :: suffix)
  | exactPhrase {scope : Scope} {text : PhraseText} {field : Option FieldReference}
      {slop : Option WholeNumber} {equals token : Token} {qualifier suffix : List Token} :
      equals.kind = .equals → QualifierWritten scope field qualifier → text.IsOf token →
      SuffixWritten .tilde slop suffix →
      Written scope (.exactPhrase text field slop) (equals :: qualifier ++ token :: suffix)
  | synonym {scope : Scope} {word : TermWord} {field : Option FieldReference}
      {fuzziness : Option Number} {tilde token : Token} {qualifier suffix : List Token} :
      tilde.kind = .tilde → QualifierWritten scope field qualifier → word.IsOf token →
      SuffixWritten .tilde fuzziness suffix →
      Written scope (.synonym word field fuzziness) (tilde :: qualifier ++ token :: suffix)
  | span {scope : Scope} {test : Test} {tokens : List Token} :
      SpanWritten test tokens → Written scope test tokens
  | template {field : FieldReference} {percent : Token} {tokens : List Token} :
      percent.kind = .percent → field.Written tokens →
      Written .query (.template [field]) (percent :: tokens)
  | templates {fields : List FieldReference} {percent opening closing : Token}
      {tokens : List Token} :
      percent.kind = .percent → opening.kind = .lparen → FieldsWritten fields tokens →
      fields ≠ [] → closing.kind = .rparen →
      Written .query (.template fields) (percent :: opening :: tokens ++ [closing])

end Test

/-!
## Operands
-/

def Sign.kinds : Sign → List TokenKind
  | none => []
  | negation => [.not, .exclamation]
  | mandatory => [.plus]
  | optional => [.bar]
  | exclude => [.minus]

inductive Sign.Written : Sign → List Token → Prop where
  | absent : Written .none []
  | present {sign : Sign} {token : Token} : token.kind ∈ sign.kinds → Written sign [token]

def Link.kinds : Link → List TokenKind
  | opening | adjacent => []
  | and => [.ampAmp, .and]
  | or => [.barBar, .or]

/-- The link to an operand that is not the first of its list. -/
inductive Link.Written : Link → List Token → Prop where
  | adjacent : Written .adjacent []
  | operator {link : Link} {token : Token} : token.kind ∈ link.kinds → Written link [token]

/-- How an operand is attached to the one before it. -/
def Operand.link : Operand → Link
  | .mk link _ _ _ => link

/-- The parts of a query that operands are made of: an operand after its link, what it applies to, a
list of operands, and the operands of a list after the first. -/
inductive Part where
  | operand (operand : Operand)
  | body (body : Body)
  | operands (operands : List Operand)
  | later (operands : List Operand)

/-- A part of a query in a scope. A range or a proximity after a field is the field group that has
it as its only operand, and is written without parentheses. -/
inductive Part.Written : Scope → Part → List Token → Prop where
  | operand {scope : Scope} {link : Link} {sign : Sign} {body : Body} {boost : Option Number}
      {front tokens suffix : List Token} :
      sign.Written front → Written scope (.body body) tokens → SuffixWritten .caret boost suffix →
      Written scope (.operand (.mk link sign body boost)) (front ++ tokens ++ suffix)
  | test {scope : Scope} {test : Test} {tokens : List Token} :
      test.Written scope tokens → Written scope (.body (.test test)) tokens
  | group {scope : Scope} {operands : List Operand} {opening closing : Token}
      {tokens : List Token} :
      opening.kind = .lparen → Written scope (.operands operands) tokens →
      closing.kind = .rparen →
      Written scope (.body (.group operands)) (opening :: tokens ++ [closing])
  | fieldGroup {field : FieldReference} {operands : List Operand} {opening closing : Token}
      {qualifier tokens : List Token} :
      field.Qualifying qualifier → opening.kind = .lparen →
      Written .fieldGroup (.operands operands) tokens → closing.kind = .rparen →
      Written .query (.body (.fieldGroup field operands))
        (qualifier ++ (opening :: tokens ++ [closing]))
  | fieldSpan {field : FieldReference} {test : Test} {qualifier tokens : List Token} :
      field.Qualifying qualifier → test.SpanWritten tokens →
      Written .query (.body (.fieldGroup field [.ofTest test])) (qualifier ++ tokens)
  | operands {scope : Scope} {first : Operand} {later : List Operand}
      {tokens rest : List Token} :
      first.link = .opening → Written scope (.operand first) tokens →
      Written scope (.later later) rest →
      Written scope (.operands (first :: later)) (tokens ++ rest)
  | done {scope : Scope} : Written scope (.later []) []
  | later {scope : Scope} {next : Operand} {later : List Operand}
      {operator tokens rest : List Token} :
      next.link.Written operator → Written scope (.operand next) tokens →
      Written scope (.later later) rest →
      Written scope (.later (next :: later)) (operator ++ tokens ++ rest)

theorem FieldReference.Qualifying.tokens_ne_nil {field : FieldReference} {tokens : List Token}
    (written : field.Qualifying tokens) : tokens ≠ [] := by
  cases written
  simp

theorem Test.Written.tokens_ne_nil {scope : Scope} {test : Test} {tokens : List Token}
    (written : test.Written scope tokens) : tokens ≠ [] := by
  cases written with
  | span written =>
      cases written with
      | range written => cases written <;> simp
      | proximity written => cases written; simp
  | _ => simp

theorem Part.Written.tokens_ne_nil {scope : Scope} {operand : Operand} {tokens : List Token}
    (written : Part.Written scope (.operand operand) tokens) : tokens ≠ [] := by
  cases written with
  | operand _ bodyWritten _ =>
      cases bodyWritten with
      | test written => simp [written.tokens_ne_nil]
      | group _ _ _ => simp
      | fieldGroup qualifying _ _ _ => simp
      | fieldSpan qualifying _ => simp [qualifying.tokens_ne_nil]

end SearchQuery
