import Mathlib.Data.List.Chain
import SearchQuery.Proofs.Written
set_option autoImplicit false

/-!
# Where two points stand

In a query that is written, two points stand behind the lower bound of a range and nowhere else.
-/

namespace SearchQuery

def PointFree (tokens : List Token) : Prop :=
  ∀ token ∈ tokens, token.kind ≠ .dotDot

/-- Two points stand only behind what can bound a range, and not in front. -/
structure Pointed (tokens : List Token) : Prop where
  chain : tokens.IsChain fun first second =>
    second.kind = .dotDot → first.kind ∈ TokenKind.rangeBounds
  head : ∀ first ∈ tokens.head?, first.kind ≠ .dotDot

section

variable {tokens others : List Token} {token : Token}

theorem PointFree.nil : PointFree [] :=
  nofun

theorem PointFree.cons (other : token.kind ≠ .dotDot) (free : PointFree tokens) :
    PointFree (token :: tokens) :=
  List.forall_mem_cons.mpr ⟨other, free⟩

theorem PointFree.append (first : PointFree tokens) (second : PointFree others) :
    PointFree (tokens ++ others) :=
  List.forall_mem_append.mpr ⟨first, second⟩

theorem PointFree.pointed (free : PointFree tokens) : Pointed tokens := by
  constructor
  case chain =>
    induction tokens with
    | nil => exact .nil
    | cons token tokens ih =>
        obtain ⟨_, later⟩ := List.forall_mem_cons.mp free
        refine List.isChain_cons.mpr ⟨fun next member dots => ?_, ih later⟩
        exact absurd dots (later next (List.mem_of_mem_head? member))
  case head =>
    intro first member
    exact free first (List.mem_of_mem_head? member)

theorem Pointed.append (first : Pointed tokens) (second : Pointed others) :
    Pointed (tokens ++ others) := by
  constructor
  case chain =>
    refine first.chain.append second.chain fun _ _ next member dots => ?_
    exact absurd dots (second.head next member)
  case head =>
    cases tokens with
    | nil => exact second.head
    | cons token tokens => exact first.head

theorem Pointed.cons (other : token.kind ≠ .dotDot) (pointed : Pointed tokens) :
    Pointed (token :: tokens) :=
  (PointFree.cons other .nil).pointed.append pointed

theorem Leaf.IsOf.kind_ne_dotDot {kinds : List TokenKind} {leaf : Leaf kinds}
    (same : leaf.IsOf token) (free : .dotDot ∉ kinds) : token.kind ≠ .dotDot :=
  fun kind => free (kind ▸ same.kind_mem)

theorem kind_ne_dotDot {kind : TokenKind} (same : token.kind = kind) (other : kind ≠ .dotDot) :
    token.kind ≠ .dotDot :=
  same ▸ other

end

/-!
## Parts without points
-/

theorem FieldReference.Bare.pointFree {field : FieldReference} {tokens : List Token}
    (written : Bare field tokens) : PointFree tokens := by
  cases written with
  | plain name => exact .cons (name.kind_ne_dotDot (by decide)) .nil
  | word word colon name =>
      exact .cons (word.kind_ne_dotDot (by decide)) (.cons (kind_ne_dotDot colon (by decide))
        (.cons (name.kind_ne_dotDot (by decide)) .nil))
  | nameSpace uri name =>
      exact .cons (uri.kind_ne_dotDot (by decide)) (.cons (name.kind_ne_dotDot (by decide)) .nil)

theorem FieldReference.Written.pointFree {field : FieldReference} {tokens : List Token}
    (written : field.Written tokens) : PointFree tokens := by
  cases written with
  | bare written => exact written.pointFree
  | marked mark written => exact .cons (kind_ne_dotDot mark (by decide)) written.pointFree

theorem FieldReference.Qualifying.pointFree {field : FieldReference} {tokens : List Token}
    (qualifying : field.Qualifying tokens) : PointFree tokens := by
  cases qualifying with
  | mk written colon =>
      exact written.pointFree.append (.cons (kind_ne_dotDot colon (by decide)) .nil)

theorem QualifierWritten.pointFree {scope : Scope} {field : Option FieldReference}
    {tokens : List Token} (written : QualifierWritten scope field tokens) : PointFree tokens := by
  cases written with
  | absent => exact .nil
  | present qualifying => exact qualifying.pointFree

theorem SuffixWritten.pointFree {mark : TokenKind} {kinds : List TokenKind}
    {number : Option (Leaf kinds)} {tokens : List Token}
    (written : SuffixWritten mark number tokens) (otherMark : mark ≠ .dotDot)
    (free : .dotDot ∉ kinds) : PointFree tokens := by
  cases written with
  | absent => exact .nil
  | present sign number =>
      exact .cons (kind_ne_dotDot sign otherMark) (.cons (number.kind_ne_dotDot free) .nil)

namespace Test

theorem DistanceWritten.pointFree {limit : Option WholeNumber} {tokens : List Token}
    (written : DistanceWritten limit tokens) : PointFree tokens := by
  cases written with
  | absent => exact .nil
  | unspecified opens closes =>
      exact .cons (kind_ne_dotDot opens (by decide))
        (.cons (kind_ne_dotDot closes (by decide)) .nil)
  | limited opens limit closes =>
      exact .cons (kind_ne_dotDot opens (by decide)) (.cons (limit.kind_ne_dotDot (by decide))
        (.cons (kind_ne_dotDot closes (by decide)) .nil))

theorem StepsWritten.pointFree {steps : List (Option WholeNumber × PlainWord)}
    {tokens : List Token} (written : StepsWritten steps tokens) : PointFree tokens := by
  induction written with
  | nil => exact .nil
  | cons star distance word _ ih =>
      have behind := PointFree.cons (word.kind_ne_dotDot (by decide)) ih
      exact (PointFree.cons (kind_ne_dotDot star (by decide)) distance.pointFree).append behind

theorem FieldsWritten.pointFree {fields : List FieldReference} {tokens : List Token}
    (written : FieldsWritten fields tokens) : PointFree tokens := by
  induction written with
  | nil => exact .nil
  | cons field _ ih => exact field.pointFree.append ih
  | comma field comma _ ih =>
      exact field.pointFree.append (.cons (kind_ne_dotDot comma (by decide)) ih)

/-!
## Ranges, and what may hold them
-/

/-- The one place where two points are written. -/
theorem RangeWritten.pointed {test : Test} {tokens : List Token}
    (written : RangeWritten test tokens) : Pointed tokens := by
  cases written with
  | @dotted low high first dots second lowIsOf points highIsOf =>
      have last : second.kind ≠ .dotDot := highIsOf.kind_ne_dotDot (by decide)
      constructor
      case chain =>
        refine .cons_cons (fun _ => lowIsOf.kind_mem) (.cons_cons (fun again => ?_) (.singleton _))
        exact absurd again last
      case head =>
        rintro _ ⟨⟩
        exact lowIsOf.kind_ne_dotDot (by decide)
  | @bracketed lower upper _ _ _ _ _ _ _ opens low upTo high closes =>
      have opening : lower.opening ≠ .dotDot := by cases lower <;> decide
      have closing : upper.closing ≠ .dotDot := by cases upper <;> decide
      refine PointFree.pointed (.cons (kind_ne_dotDot opens opening)
        (.cons (low.kind_ne_dotDot (by decide)) (.cons (kind_ne_dotDot upTo (by decide))
          (.cons (high.kind_ne_dotDot (by decide)) (.cons (kind_ne_dotDot closes closing) .nil)))))

theorem SpanWritten.pointed {test : Test} {tokens : List Token}
    (written : SpanWritten test tokens) : Pointed tokens := by
  cases written with
  | range written => exact written.pointed
  | proximity written =>
      cases written with
      | mk first steps _ =>
          exact (PointFree.cons (first.kind_ne_dotDot (by decide)) steps.pointFree).pointed

theorem Written.pointed {scope : Scope} {test : Test} {tokens : List Token}
    (written : test.Written scope tokens) : Pointed tokens := by
  cases written with
  | term qualifier word suffix | phrase qualifier word suffix =>
      exact (qualifier.pointFree.append (.cons (word.kind_ne_dotDot (by decide))
        (suffix.pointFree (by decide) (by decide)))).pointed
  | exactTerm mark qualifier word suffix | exactPhrase mark qualifier word suffix
  | synonym mark qualifier word suffix =>
      have behind := PointFree.cons (word.kind_ne_dotDot (by decide))
        (suffix.pointFree (by decide) (by decide))
      exact ((PointFree.cons (kind_ne_dotDot mark (by decide)) qualifier.pointFree).append
        behind).pointed
  | span written => exact written.pointed
  | template percent field =>
      exact (PointFree.cons (kind_ne_dotDot percent (by decide)) field.pointFree).pointed
  | templates percent opens fields _ closes =>
      have front := PointFree.cons (kind_ne_dotDot percent (by decide))
        (.cons (kind_ne_dotDot opens (by decide)) fields.pointFree)
      exact (front.append (.cons (kind_ne_dotDot closes (by decide)) .nil)).pointed

end Test

theorem Sign.Written.pointFree {sign : Sign} {tokens : List Token} (written : sign.Written tokens) :
    PointFree tokens := by
  cases written with
  | absent => exact .nil
  | present member =>
      have free : TokenKind.dotDot ∉ sign.kinds := by cases sign <;> decide
      exact .cons (fun kind => free (kind ▸ member)) .nil

theorem Link.Written.pointFree {link : Link} {tokens : List Token} (written : link.Written tokens) :
    PointFree tokens := by
  cases written with
  | adjacent => exact .nil
  | operator member =>
      have free : TokenKind.dotDot ∉ link.kinds := by cases link <;> decide
      exact .cons (fun kind => free (kind ▸ member)) .nil

theorem Part.Written.pointed {scope : Scope} {part : Part} {tokens : List Token}
    (written : Part.Written scope part tokens) : Pointed tokens := by
  induction written with
  | operand sign _ boost ih =>
      exact (sign.pointFree.pointed.append ih).append
        (boost.pointFree (by decide) (by decide)).pointed
  | test written => exact written.pointed
  | group opens _ closes ih =>
      exact (ih.cons (kind_ne_dotDot opens (by decide))).append
        (PointFree.cons (kind_ne_dotDot closes (by decide)) .nil).pointed
  | fieldGroup qualifying opens _ closes ih =>
      exact qualifying.pointFree.pointed.append
        ((ih.cons (kind_ne_dotDot opens (by decide))).append
          (PointFree.cons (kind_ne_dotDot closes (by decide)) .nil).pointed)
  | fieldSpan qualifying written => exact qualifying.pointFree.pointed.append written.pointed
  | operands _ _ _ firstPointed laterPointed => exact firstPointed.append laterPointed
  | done => exact PointFree.nil.pointed
  | later link _ _ nextPointed laterPointed =>
      exact (link.pointFree.pointed.append nextPointed).append laterPointed

end SearchQuery
