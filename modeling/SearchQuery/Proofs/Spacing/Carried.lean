import Mathlib.Data.List.Chain
import Mathlib.Data.List.Forall2
import SearchQuery.Grammar.Cmis
import SearchQuery.Proofs.Reading
set_option autoImplicit false

/-!
# Tokens at other places

Two token lists are alike if they have the same kinds and texts, wherever their tokens stand, and
akin if they may differ in operators besides. A reading carries over from a list to one that is
related to it if it accepts of the second what it accepts of the first. What the grammar finds ahead
is the same in lists that are alike, with one exception: whether two suffixes touch is asked of the
places of tokens.
-/

namespace SearchQuery

/-- The kinds of the operators that have a symbol and a keyword. -/
def TokenKind.operators : List TokenKind :=
  [barBar, ampAmp, exclamation, or, and, not]

structure Token.Like (first second : Token) : Prop where
  kind : first.kind = second.kind
  text : first.text = second.text

/-- Token lists that are the same but for the places of the tokens. -/
abbrev Alike : List Token → List Token → Prop :=
  List.Forall₂ Token.Like

/-- Tokens that are alike, or are both operators. -/
def Token.Akin (first second : Token) : Prop :=
  first.Like second ∨ first.kind ∈ TokenKind.operators ∧ second.kind ∈ TokenKind.operators

/-- Token lists that are the same but for operators and the places of the tokens. -/
abbrev Akin : List Token → List Token → Prop :=
  List.Forall₂ Token.Akin

/-- No two tokens touch. -/
abbrev Apart (tokens : List Token) : Prop :=
  tokens.IsChain fun first second => second.start ≠ first.stop

/-- The second list is like the first one, and no two of its tokens touch. -/
structure Spread (left right : List Token) : Prop where
  alike : Alike left right
  apart : Apart right

/-- A relation of token lists that differ only where the first one has operators of some kinds. It
goes over to what follows the first token. -/
structure Hereditary (replaced : List TokenKind) (related : List Token → List Token → Prop) :
    Prop where
  operators : replaced ⊆ TokenKind.operators
  akin : ∀ {left right : List Token}, related left right → Akin left right
  like : ∀ {first second : Token} {left right : List Token},
    related (first :: left) (second :: right) → first.kind ∉ replaced → first.Like second
  tail : ∀ {first second : Token} {left right : List Token},
    related (first :: left) (second :: right) → related left right

theorem Token.Like.symm {first second : Token} (like : first.Like second) : second.Like first :=
  ⟨like.kind.symm, like.text.symm⟩

theorem Alike.symm {left right : List Token} (alike : Alike left right) : Alike right left := by
  induction alike with
  | nil => exact .nil
  | cons like _ ih => exact .cons like.symm ih

theorem Alike.akin {left right : List Token} (alike : Alike left right) : Akin left right := by
  induction alike with
  | nil => exact .nil
  | cons like _ ih => exact .cons (.inl like) ih

theorem Akin.symm {left right : List Token} (akin : Akin left right) : Akin right left := by
  induction akin with
  | nil => exact .nil
  | cons same _ ih => exact .cons (same.imp Token.Like.symm And.symm) ih

/-- What does not depend on the place of a token is the same along lists that are alike. -/
theorem Alike.map_eq {Value : Type} {field : Token → Value} {left right : List Token}
    (alike : Alike left right)
    (same : ∀ first second : Token, first.Like second → field first = field second) :
    right.map field = left.map field := by
  induction alike with
  | nil => rfl
  | cons like _ ih => rw [List.map_cons, List.map_cons, same _ _ like, ih]

theorem Alike.hereditary : Hereditary [] Alike where
  operators := List.nil_subset _
  akin := Alike.akin
  like alike _ := (List.forall₂_cons.mp alike).1
  tail alike := (List.forall₂_cons.mp alike).2

theorem Akin.hereditary : Hereditary TokenKind.operators Akin where
  operators := List.Subset.refl _
  akin := id
  like akin ordinary := (List.forall₂_cons.mp akin).1.resolve_right fun both => ordinary both.1
  tail akin := (List.forall₂_cons.mp akin).2

theorem Spread.hereditary : Hereditary [] Spread where
  operators := List.nil_subset _
  akin spread := spread.alike.akin
  like spread _ := (List.forall₂_cons.mp spread.alike).1
  tail spread := ⟨(List.forall₂_cons.mp spread.alike).2, spread.apart.tail⟩

/-!
## What is ahead
-/

namespace Akin

open Grammar

variable {left right : List Token}

theorem isEmpty_eq (akin : Akin left right) : left.isEmpty = right.isEmpty := by
  cases akin <;> rfl

theorem nextIn_eq (akin : Akin left right) {kinds : List TokenKind}
    (ordinary : ∀ kind ∈ kinds, kind ∉ TokenKind.operators) :
    nextIn kinds left = nextIn kinds right := by
  cases akin with
  | nil => rfl
  | @cons first second _ _ same _ =>
      cases same with
      | inl like => simp only [nextIn, like.kind]
      | inr both =>
          have apart {kind : TokenKind} (operator : kind ∈ TokenKind.operators) : kind ∉ kinds :=
            fun member => ordinary kind member operator
          simp [nextIn, apart both.1, apart both.2]

theorem nextIs_eq (akin : Akin left right) {kind : TokenKind}
    (ordinary : kind ∉ TokenKind.operators) : nextIs kind left = nextIs kind right := by
  have single (tokens : List Token) : nextIs kind tokens = nextIn [kind] tokens := by
    cases tokens <;> simp [nextIs, nextIn, Bool.beq_eq_decide_eq]
  rw [single, single, akin.nextIn_eq (by simpa using ordinary)]

theorem numericSuffixAhead_eq (akin : Akin left right) :
    numericSuffixAhead left = numericSuffixAhead right := by
  have split (tokens : List Token) : numericSuffixAhead tokens =
      (nextIs .tilde tokens && nextIn TokenKind.numbers tokens.tail) := by
    rcases tokens with _ | ⟨tilde, _ | ⟨number, rest⟩⟩ <;>
      simp [numericSuffixAhead, nextIs, nextIn, TokenKind.isNumber]
  have tail : Akin left.tail right.tail := by
    cases akin with
    | nil => exact .nil
    | cons _ later => exact later
  rw [split, split, akin.nextIs_eq (by decide), tail.nextIn_eq (by decide)]

theorem starless (akin : Akin left right) (absent : ∀ token ∈ left, token.kind ≠ .star) :
    ∀ token ∈ right, token.kind ≠ .star := by
  induction akin with
  | nil => exact absent
  | @cons first second _ _ same _ ih =>
      obtain ⟨here, later⟩ := List.forall_mem_cons.mp absent
      refine List.forall_mem_cons.mpr ⟨?_, ih later⟩
      intro kind
      cases same with
      | inl like => exact here (like.kind.trans kind)
      | inr both =>
          have operator := both.2
          simp [kind, TokenKind.operators] at operator

end Akin

namespace Alike

open Grammar

variable {left right : List Token}

theorem isEmpty_eq (alike : Alike left right) : left.isEmpty = right.isEmpty :=
  alike.akin.isEmpty_eq

theorem nextIs_eq (alike : Alike left right) (kind : TokenKind) :
    nextIs kind left = nextIs kind right := by
  cases alike with
  | nil => rfl
  | cons like _ => simp only [nextIs, like.kind]

theorem nextIn_eq (alike : Alike left right) (kinds : List TokenKind) :
    nextIn kinds left = nextIn kinds right := by
  cases alike with
  | nil => rfl
  | cons like _ => simp only [nextIn, like.kind]

theorem linkAhead?_eq (alike : Alike left right) (scope : Scope) :
    linkAhead? scope left = linkAhead? scope right := by
  cases alike with
  | nil => rfl
  | cons like later => simp only [linkAhead?, like.kind, nextIn_eq later]

theorem mayBeginProximity_eq (alike : Alike left right) :
    mayBeginProximity left = mayBeginProximity right := by
  cases alike with
  | nil => rfl
  | cons first later =>
      cases later with
      | nil => rfl
      | cons second _ => simp only [mayBeginProximity, first.kind, second.kind]

theorem dividerAhead_eq (alike : Alike left right) :
    Cmis.dividerAhead left = Cmis.dividerAhead right := by
  cases alike with
  | nil => rfl
  | cons like later => simp only [Cmis.dividerAhead, like.kind, nextIn_eq later]

theorem cmisLinkAhead?_eq (alike : Alike left right) :
    Cmis.linkAhead? left = Cmis.linkAhead? right := by
  simp only [Cmis.linkAhead?, dividerAhead_eq alike, isEmpty_eq alike]

end Alike

/-- Suffixes that do not touch are never stacked. -/
theorem Apart.stackedSuffixAhead_eq_false {tokens : List Token} (apart : Apart tokens) :
    Grammar.stackedSuffixAhead tokens = false := by
  rcases tokens with _ | ⟨tilde, _ | ⟨number, _ | ⟨next, rest⟩⟩⟩
  · rfl
  · rfl
  · rfl
  · have gap : next.start ≠ number.stop := (List.isChain_cons_cons.mp apart.tail).1
    simp [Grammar.stackedSuffixAhead, gap]

/-!
## Readings that carry over
-/

namespace Reading

variable {α β : Type} {related : List Token → List Token → Prop}

/-- What the first reading accepts of a list, the second one accepts of every related list, and what
they leave is related. -/
def CarriesTo (related : List Token → List Token → Prop) (first second : Reading α) : Prop :=
  ∀ ⦃left right : List Token⦄, related left right → ∀ ⦃value : α⦄ ⦃rest : List Token⦄,
    first.run left = .ok (value, rest) →
      ∃ remaining, second.run right = .ok (value, remaining) ∧ related rest remaining

abbrev Carries (related : List Token → List Token → Prop) (reading : Reading α) : Prop :=
  CarriesTo related reading reading

namespace CarriesTo

theorem pure (value : α) : Carries related (Pure.pure value) := by
  intro left right same result rest accepted
  obtain ⟨rfl, rfl⟩ := run_pure_eq_ok_iff.mp accepted
  exact ⟨right, rfl, same⟩

/-- What fails has nothing to carry over. -/
theorem of_fail (cause : ParseFault) (expected : List TokenKind) (second : Reading α) :
    CarriesTo related (fail cause expected) second := by
  intro left right same result rest accepted
  exact absurd accepted run_fail_ne_ok

theorem look {first second : List Token → Reading α}
    (each : ∀ left right, related left right → CarriesTo related (first left) (second right)) :
    CarriesTo related (Reading.look first) (Reading.look second) := by
  intro left right same
  exact each left right same same

theorem within {first second : Reading α} (rule : Rule) (inner : CarriesTo related first second) :
    CarriesTo related (Reading.within rule first) (Reading.within rule second) := by
  intro left right same value rest accepted
  rw [run_within_eq_ok_iff] at accepted
  obtain ⟨remaining, again, left⟩ := inner same accepted
  exact ⟨remaining, (run_within_eq_ok_iff ..).mpr again, left⟩

theorem bind {first second : Reading α} {firstNext secondNext : α → Reading β}
    (carries : CarriesTo related first second)
    (next : ∀ value, CarriesTo related (firstNext value) (secondNext value)) :
    CarriesTo related (first >>= firstNext) (second >>= secondNext) := by
  intro left right same result rest accepted
  obtain ⟨value, between, read, nextRead⟩ := run_bind_eq_ok_iff.mp accepted
  obtain ⟨middle, again, behind⟩ := carries same read
  obtain ⟨remaining, nextAgain, left⟩ := next value behind nextRead
  exact ⟨remaining, run_bind_eq_ok_iff.mpr ⟨value, middle, again, nextAgain⟩, left⟩

section

variable {replaced : List TokenKind} (hereditary : Hereditary replaced related)

include hereditary

theorem takeOneOf {kinds : List TokenKind} (apart : ∀ kind ∈ kinds, kind ∉ replaced) :
    Carries related (Reading.takeOneOf kinds) := by
  intro left right same leaf rest accepted
  obtain ⟨token, isOf, rfl⟩ := run_takeOneOf_eq_ok_iff.mp accepted
  cases hereditary.akin same with
  | @cons _ other _ others _ _ =>
      have like := hereditary.like same (apart _ isOf.kind_mem)
      have isOfOther : leaf.IsOf other := ⟨isOf.kind.trans like.kind, isOf.text.trans like.text⟩
      exact ⟨others, run_takeOneOf_eq_ok_iff.mpr ⟨other, isOfOther, rfl⟩, hereditary.tail same⟩

theorem take {kind : TokenKind} (ordinary : kind ∉ TokenKind.operators) :
    Carries related (Reading.take kind) := by
  intro left right same leaf rest accepted
  rw [run_take_eq_ok_iff, ← run_takeOneOf_eq_ok_iff] at accepted
  have apart : ∀ other ∈ [kind], other ∉ replaced :=
    List.forall_mem_singleton.mpr fun member => ordinary (hereditary.operators member)
  obtain ⟨remaining, again, behind⟩ := takeOneOf hereditary apart same accepted
  rw [run_takeOneOf_eq_ok_iff, ← run_take_eq_ok_iff] at again
  exact ⟨remaining, again, behind⟩

theorem advance : Carries related Reading.advance := by
  intro left right same value rest accepted
  obtain ⟨token, rfl⟩ := run_advance_eq_ok_iff.mp accepted
  cases hereditary.akin same with
  | @cons _ other _ others _ _ =>
      exact ⟨others, run_advance_eq_ok_iff.mpr ⟨other, rfl⟩, hereditary.tail same⟩

theorem atEnd : Carries related Reading.atEnd := by
  intro left right same value rest accepted
  obtain ⟨rfl, rfl⟩ := run_atEnd_eq_ok_iff.mp accepted
  cases hereditary.akin same with
  | nil => exact ⟨[], rfl, same⟩

end

/-- What carries over in both directions is accepted of both lists or of neither. -/
theorem isOk_eq {inner : Reading α} (carries : Carries related inner) {left right : List Token}
    (same : related left right) (back : related right left) :
    (inner.run left).isOk = (inner.run right).isOk := by
  cases leftRun : inner.run left with
  | ok read =>
      obtain ⟨remaining, again, _⟩ := carries same leftRun
      rw [again]
      rfl
  | error failure =>
      cases rightRun : inner.run right with
      | error other => rfl
      | ok read =>
          obtain ⟨remaining, again, _⟩ := carries back rightRun
          rw [leftRun] at again
          cases again

theorem wouldSucceed {inner : Reading α} (agree : ∀ left right, related left right →
    (inner.run left).isOk = (inner.run right).isOk) :
    Carries related (Reading.wouldSucceed inner) := by
  intro left right same found rest accepted
  obtain ⟨rfl, rfl⟩ := run_wouldSucceed_eq_ok_iff.mp accepted
  exact ⟨right, run_wouldSucceed_eq_ok_iff.mpr ⟨(agree _ _ same).symm, rfl⟩, same⟩

end CarriesTo

end Reading

end SearchQuery
