import SearchQuery.Proofs.Written
set_option autoImplicit false

/-!
# Parentheses

How many parentheses tokens open and do not close. Whatever is written for a part of a query closes
all that it opens, so behind a part parentheses are as deep as before it.
-/

namespace SearchQuery

def Token.opens (token : Token) : Int :=
  if token.kind = .lparen then 1 else if token.kind = .rparen then -1 else 0

/-- The parentheses that are opened, less those that are closed. -/
def opened : List Token → Int
  | [] => 0
  | token :: rest => token.opens + opened rest

@[simp]
theorem opened_nil : opened [] = 0 := rfl

@[simp]
theorem opened_cons (token : Token) (rest : List Token) :
    opened (token :: rest) = token.opens + opened rest := rfl

@[simp]
theorem opened_append (front rest : List Token) :
    opened (front ++ rest) = opened front + opened rest := by
  induction front with
  | nil => simp
  | cons token front ih => simp only [List.cons_append, opened_cons, ih, Int.add_assoc]

namespace Token

variable {token : Token}

theorem opens_of_lparen (kind : token.kind = .lparen) : token.opens = 1 := by
  simp [opens, kind]

theorem opens_of_rparen (kind : token.kind = .rparen) : token.opens = -1 := by
  simp [opens, kind]

theorem opens_eq_zero {kinds : List TokenKind} (member : token.kind ∈ kinds)
    (apart : TokenKind.lparen ∉ kinds ∧ TokenKind.rparen ∉ kinds) : token.opens = 0 := by
  have noOpening : token.kind ≠ .lparen := fun same => apart.1 (same ▸ member)
  have noClosing : token.kind ≠ .rparen := fun same => apart.2 (same ▸ member)
  simp [opens, noOpening, noClosing]

theorem opens_eq_zero_of_kind {kind : TokenKind} (same : token.kind = kind)
    (apart : kind ≠ .lparen ∧ kind ≠ .rparen) : token.opens = 0 := by
  subst same
  simp [opens, apart]

end Token

theorem Leaf.IsOf.opens {kinds : List TokenKind} {leaf : Leaf kinds} {token : Token}
    (same : leaf.IsOf token) (apart : TokenKind.lparen ∉ kinds ∧ TokenKind.rparen ∉ kinds) :
    token.opens = 0 :=
  token.opens_eq_zero same.kind_mem apart

/-!
## Written forms
-/

namespace FieldReference

variable {field : FieldReference} {tokens : List Token}

theorem Bare.opened_eq (written : field.Bare tokens) : opened tokens = 0 := by
  cases written with
  | plain nameSame => simp [nameSame.opens (by decide)]
  | word wordSame colon nameSame =>
      simp [wordSame.opens (by decide), nameSame.opens (by decide),
        Token.opens_eq_zero_of_kind colon (by decide)]
  | nameSpace uriSame nameSame => simp [uriSame.opens (by decide), nameSame.opens (by decide)]

theorem Written.opened_eq (written : field.Written tokens) : opened tokens = 0 := by
  cases written with
  | bare written => exact written.opened_eq
  | marked mark written =>
      simp [written.opened_eq, Token.opens_eq_zero_of_kind mark (by decide)]

theorem Qualifying.opened_eq (qualifying : field.Qualifying tokens) : opened tokens = 0 := by
  cases qualifying with
  | mk written colon => simp [written.opened_eq, Token.opens_eq_zero_of_kind colon (by decide)]

end FieldReference

theorem QualifierWritten.opened_eq {scope : Scope} {field : Option FieldReference}
    {tokens : List Token} (written : QualifierWritten scope field tokens) : opened tokens = 0 := by
  cases written with
  | absent => rfl
  | present qualifying => exact qualifying.opened_eq

theorem SuffixWritten.opened_eq {mark : TokenKind} {kinds : List TokenKind}
    {read : Option (Leaf kinds)} {suffix : List Token} (written : SuffixWritten mark read suffix)
    (apart : mark ≠ .lparen ∧ mark ≠ .rparen)
    (numbers : TokenKind.lparen ∉ kinds ∧ TokenKind.rparen ∉ kinds) : opened suffix = 0 := by
  cases written with
  | absent => rfl
  | present sign number => simp [Token.opens_eq_zero_of_kind sign apart, number.opens numbers]

namespace Test

theorem RangeWritten.opened_eq {test : Test} {tokens : List Token}
    (written : RangeWritten test tokens) : opened tokens = 0 := by
  cases written with
  | dotted low dots high =>
      simp [low.opens (by decide), high.opens (by decide),
        Token.opens_eq_zero_of_kind dots (by decide)]
  | @bracketed lower upper _ _ _ _ _ _ _ opens low upTo high closes =>
      have brackets : lower.opening ≠ .lparen ∧ lower.opening ≠ .rparen ∧
          upper.closing ≠ .lparen ∧ upper.closing ≠ .rparen := by
        cases lower <;> cases upper <;> decide
      simp [low.opens (by decide), high.opens (by decide),
        Token.opens_eq_zero_of_kind upTo (by decide),
        Token.opens_eq_zero_of_kind opens ⟨brackets.1, brackets.2.1⟩,
        Token.opens_eq_zero_of_kind closes brackets.2.2]

theorem DistanceWritten.opened_eq {limit : Option WholeNumber} {between : List Token}
    (written : DistanceWritten limit between) : opened between = 0 := by
  cases written with
  | absent => rfl
  | unspecified opens closes =>
      simp [Token.opens_of_lparen opens, Token.opens_of_rparen closes]
  | limited opens number closes =>
      simp [Token.opens_of_lparen opens, Token.opens_of_rparen closes, number.opens (by decide)]

theorem StepsWritten.opened_eq {steps : List (Option WholeNumber × PlainWord)}
    {tokens : List Token} (written : StepsWritten steps tokens) : opened tokens = 0 := by
  induction written with
  | nil => rfl
  | cons star distance word _ ih =>
      simp [Token.opens_eq_zero_of_kind star (by decide), distance.opened_eq,
        word.opens (by decide), ih]

theorem ProximityWritten.opened_eq {test : Test} {tokens : List Token}
    (written : ProximityWritten test tokens) : opened tokens = 0 := by
  cases written with
  | mk first steps _ => simp [first.opens (by decide), steps.opened_eq]

theorem SpanWritten.opened_eq {test : Test} {tokens : List Token}
    (written : test.SpanWritten tokens) : opened tokens = 0 := by
  cases written with
  | range written => exact written.opened_eq
  | proximity written => exact written.opened_eq

theorem FieldsWritten.opened_eq {fields : List FieldReference} {tokens : List Token}
    (written : FieldsWritten fields tokens) : opened tokens = 0 := by
  induction written with
  | nil => rfl
  | cons field _ ih => simp [field.opened_eq, ih]
  | comma field comma _ ih =>
      simp [field.opened_eq, ih, Token.opens_eq_zero_of_kind comma (by decide)]

theorem Written.opened_eq {scope : Scope} {test : Test} {tokens : List Token}
    (written : test.Written scope tokens) : opened tokens = 0 := by
  cases written with
  | term qualifier word suffix =>
      simp [qualifier.opened_eq, word.opens (by decide), suffix.opened_eq (by decide) (by decide)]
  | phrase qualifier text suffix =>
      simp [qualifier.opened_eq, text.opens (by decide), suffix.opened_eq (by decide) (by decide)]
  | exactTerm mark qualifier word suffix | synonym mark qualifier word suffix =>
      simp [Token.opens_eq_zero_of_kind mark (by decide), qualifier.opened_eq,
        word.opens (by decide), suffix.opened_eq (by decide) (by decide)]
  | exactPhrase mark qualifier text suffix =>
      simp [Token.opens_eq_zero_of_kind mark (by decide), qualifier.opened_eq,
        text.opens (by decide), suffix.opened_eq (by decide) (by decide)]
  | span written => exact written.opened_eq
  | template percent field =>
      simp [Token.opens_eq_zero_of_kind percent (by decide), field.opened_eq]
  | templates percent opens fields _ closes =>
      simp [Token.opens_eq_zero_of_kind percent (by decide), Token.opens_of_lparen opens,
        fields.opened_eq, Token.opens_of_rparen closes]

end Test

theorem Sign.Written.opened_eq {sign : Sign} {tokens : List Token} (written : sign.Written tokens) :
    opened tokens = 0 := by
  cases written with
  | absent => rfl
  | present member =>
      have apart : TokenKind.lparen ∉ sign.kinds ∧ TokenKind.rparen ∉ sign.kinds := by
        cases sign <;> decide
      simp [Token.opens_eq_zero member apart]

theorem Link.Written.opened_eq {link : Link} {tokens : List Token} (written : link.Written tokens) :
    opened tokens = 0 := by
  cases written with
  | adjacent => rfl
  | operator member =>
      have apart : TokenKind.lparen ∉ link.kinds ∧ TokenKind.rparen ∉ link.kinds := by
        cases link <;> decide
      simp [Token.opens_eq_zero member apart]

/-- A part closes the parentheses that it opens. -/
theorem Part.Written.opened_eq {scope : Scope} {part : Part} {tokens : List Token}
    (written : Part.Written scope part tokens) : opened tokens = 0 := by
  induction written with
  | operand sign _ suffix ih => simp [sign.opened_eq, ih, suffix.opened_eq (by decide) (by decide)]
  | test written => exact written.opened_eq
  | group opens _ closes ih => simp [Token.opens_of_lparen opens, ih, Token.opens_of_rparen closes]
  | fieldGroup qualifying opens _ closes ih =>
      simp [qualifying.opened_eq, Token.opens_of_lparen opens, ih, Token.opens_of_rparen closes]
  | fieldSpan qualifying written => simp [qualifying.opened_eq, written.opened_eq]
  | operands _ _ _ firstIH laterIH => simp [firstIH, laterIH]
  | done => rfl
  | later link _ _ nextIH laterIH => simp [link.opened_eq, nextIH, laterIH]

/-!
## Depth
-/

/-- Parentheses are never so deep, however far one reads. -/
def Shallow (levels : Nat) (tokens : List Token) : Prop :=
  ∀ ⦃front : List Token⦄, front <+: tokens → opened front < levels

theorem not_shallow_zero (tokens : List Token) : ¬ Shallow 0 tokens := by
  intro shallow
  exact absurd (shallow (List.nil_prefix)) (Int.lt_irrefl 0)

theorem Shallow.behind {levels : Nat} {taken rest : List Token} (closed : opened taken = 0)
    (shallow : Shallow levels (taken ++ rest)) : Shallow levels rest := by
  intro front inside
  have bound := shallow ((List.prefix_append_right_inj taken).mpr inside)
  rwa [opened_append, closed, Int.zero_add] at bound

theorem Shallow.inside {levels : Nat} {opening : Token} {rest : List Token}
    (opens : opening.kind = .lparen) (shallow : Shallow (levels + 1) (opening :: rest)) :
    Shallow levels rest := by
  intro front inside
  have bound := shallow (List.cons_prefix_cons.mpr ⟨rfl, inside⟩)
  rw [opened_cons, Token.opens_of_lparen opens] at bound
  omega

end SearchQuery
