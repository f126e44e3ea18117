import SearchQuery.Grammar.Test
import SearchQuery.Proofs.Written
set_option autoImplicit false

/-!
# Accepted tests are written forms

Whatever the grammar reads as a test is written with the tokens that it has taken, for each reading
that a test is made of. Operands inside a test are read by a parameter, of which only this much is
assumed: what it accepts is written so in its scope.
-/

namespace SearchQuery.Grammar

open Reading

theorem nextIs_eq_true_iff {kind : TokenKind} {tokens : List Token} :
    nextIs kind tokens = true ↔ ∃ token rest, token.kind = kind ∧ tokens = token :: rest := by
  cases tokens with
  | nil => simp [nextIs]
  | cons token rest => simp [nextIs]

theorem nextIn_eq_true_iff {kinds : List TokenKind} {tokens : List Token} :
    nextIn kinds tokens = true ↔ ∃ token rest, token.kind ∈ kinds ∧ tokens = token :: rest := by
  cases tokens with
  | nil => simp [nextIn]
  | cons token rest => simp [nextIn]

/-!
## Fields
-/

theorem skip_accepted {kind : TokenKind} {tokens rest : List Token} {result : Unit}
    (accepted : (skip kind).run tokens = .ok (result, rest)) :
    tokens = rest ∨ ∃ mark, mark.kind = kind ∧ tokens = mark :: rest := by
  rw [skip, run_look] at accepted
  split at accepted
  · next ahead =>
      obtain ⟨mark, _, kindSame, rfl⟩ := nextIs_eq_true_iff.mp ahead
      cases accepted
      exact .inr ⟨mark, kindSame, rfl⟩
  · exact .inl (run_pure_eq_ok_iff.mp accepted).2

theorem fieldReference_written {qualified : Bool} :
    (fieldReference qualified).Writes FieldReference.Written := by
  intro tokens rest field accepted
  simp only [fieldReference, run_within_eq_ok_iff, run_bind_eq_ok_iff, run_look] at accepted
  obtain ⟨_, between, skipped, named⟩ := accepted
  have named : ∃ taken, between = taken ++ rest ∧ field.Bare taken := by
    split at named
    · simp only [run_bind_eq_ok_iff, run_take_eq_ok_iff, run_pure_eq_ok_iff] at named
      obtain ⟨uri, _, ⟨first, uriSame, rfl⟩, name, _, ⟨second, nameSame, rfl⟩, rfl, rfl⟩ := named
      exact ⟨[first, second], rfl, .nameSpace uriSame nameSame⟩
    · split at named
      · simp only [run_bind_eq_ok_iff, run_take_eq_ok_iff, run_pure_eq_ok_iff] at named
        obtain ⟨word, _, ⟨first, wordSame, rfl⟩, _, _, ⟨colon, colonSame, rfl⟩, name, _,
          ⟨second, nameSame, rfl⟩, rfl, rfl⟩ := named
        exact ⟨[first, colon, second], rfl, .word wordSame colonSame.kind_eq nameSame⟩
      · simp only [run_bind_eq_ok_iff, run_take_eq_ok_iff, run_pure_eq_ok_iff] at named
        obtain ⟨name, _, ⟨token, nameSame, rfl⟩, rfl, rfl⟩ := named
        exact ⟨[token], rfl, .plain nameSame⟩
  obtain ⟨taken, rfl, bare⟩ := named
  rcases skip_accepted skipped with rfl | ⟨mark, kindSame, rfl⟩
  · exact ⟨taken, rfl, .bare bare⟩
  · exact ⟨mark :: taken, rfl, .marked kindSame bare⟩

theorem anyFieldReference_written : anyFieldReference.Writes FieldReference.Written := by
  intro tokens rest field accepted
  simp only [anyFieldReference, run_bind_eq_ok_iff, run_wouldSucceed_eq_ok_iff] at accepted
  obtain ⟨qualified, _, ⟨_, rfl⟩, named⟩ := accepted
  exact fieldReference_written named

theorem fieldQualifier_written {qualified : Bool} :
    (fieldQualifier qualified).Writes FieldReference.Qualifying := by
  intro tokens rest field accepted
  simp only [fieldQualifier, run_bind_eq_ok_iff, run_take_eq_ok_iff, run_pure_eq_ok_iff] at accepted
  obtain ⟨field, _, named, _, _, ⟨colon, colonSame, rfl⟩, rfl, rfl⟩ := accepted
  obtain ⟨taken, rfl, written⟩ := fieldReference_written named
  exact ⟨taken ++ [colon], by simp, .mk written colonSame.kind_eq⟩

/-- Looking for a field takes nothing. -/
theorem fieldQualifierForm_accepted {tokens rest : List Token} {form : Option Bool}
    (accepted : fieldQualifierForm.run tokens = .ok (form, rest)) : tokens = rest := by
  simp only [fieldQualifierForm, run_bind_eq_ok_iff, run_wouldSucceed_eq_ok_iff] at accepted
  obtain ⟨_, _, ⟨_, rfl⟩, decided⟩ := accepted
  split at decided
  · exact (run_pure_eq_ok_iff.mp decided).2
  · simp only [run_bind_eq_ok_iff, run_wouldSucceed_eq_ok_iff] at decided
    obtain ⟨_, _, ⟨_, rfl⟩, decided⟩ := decided
    split at decided
    · exact (run_pure_eq_ok_iff.mp decided).2
    · exact (run_pure_eq_ok_iff.mp decided).2

theorem optionalFieldQualifier_written {scope : Scope} :
    (optionalFieldQualifier scope).Writes (QualifierWritten scope) := by
  intro tokens rest field accepted
  cases scope with
  | fieldGroup =>
      obtain ⟨rfl, rfl⟩ := run_pure_eq_ok_iff.mp accepted
      exact ⟨[], rfl, .absent⟩
  | query =>
      simp only [optionalFieldQualifier, run_bind_eq_ok_iff] at accepted
      obtain ⟨form, _, looked, decided⟩ := accepted
      obtain rfl := fieldQualifierForm_accepted looked
      split at decided
      · simp only [run_bind_eq_ok_iff, run_pure_eq_ok_iff] at decided
        obtain ⟨field, _, qualified, rfl, rfl⟩ := decided
        obtain ⟨taken, rfl, written⟩ := fieldQualifier_written qualified
        exact ⟨taken, rfl, .present written⟩
      · obtain ⟨rfl, rfl⟩ := run_pure_eq_ok_iff.mp decided
        exact ⟨[], rfl, .absent⟩

/-!
## Suffixes
-/

theorem numericSuffixAhead_eq_true {tokens : List Token}
    (ahead : numericSuffixAhead tokens = true) :
    ∃ tilde rest, tilde.kind = .tilde ∧ tokens = tilde :: rest := by
  unfold numericSuffixAhead at ahead
  split at ahead
  · next tilde number rest =>
      simp only [Bool.and_eq_true, beq_iff_eq] at ahead
      exact ⟨tilde, number :: rest, ahead.1, rfl⟩
  · cases ahead

/-- A number after `~` loosens a word or a phrase, whatever numbers are taken there. -/
theorem loosening_written {rule : Rule} {kinds : List TokenKind} {number : Reading (Leaf kinds)}
    (leaf : number.Writes fun leaf taken => ∃ token, leaf.IsOf token ∧ taken = [token]) :
    Reading.Writes
      (look fun tokens =>
        if numericSuffixAhead tokens then
          within rule do
            advance
            let number ← number
            if stackedSuffixAhead tokens then
              fail .noViableAlternative []
            else
              return some number
        else
          return none)
      (SuffixWritten .tilde) := by
  intro tokens rest read accepted
  rw [run_look] at accepted
  split at accepted
  · next ahead =>
      obtain ⟨tilde, after, tildeKind, rfl⟩ := numericSuffixAhead_eq_true ahead
      simp only [run_within_eq_ok_iff, run_bind_eq_ok_iff, run_advance_eq_ok_iff] at accepted
      obtain ⟨_, _, ⟨_, split⟩, number, _, numberRead, decided⟩ := accepted
      cases split
      obtain ⟨_, rfl, token, numberSame, rfl⟩ := leaf numberRead
      split at decided
      · exact absurd decided run_fail_ne_ok
      · obtain ⟨rfl, rfl⟩ := run_pure_eq_ok_iff.mp decided
        exact ⟨[tilde, token], rfl, .present tildeKind numberSame⟩
  · obtain ⟨rfl, rfl⟩ := run_pure_eq_ok_iff.mp accepted
    exact ⟨[], rfl, .absent⟩

theorem fuzziness_written : fuzziness.Writes (SuffixWritten .tilde) :=
  loosening_written takeOneOf_written

theorem slop_written : slop.Writes (SuffixWritten .tilde) :=
  loosening_written take_written

theorem boost_written : boost.Writes (SuffixWritten .caret) := by
  intro tokens rest number accepted
  rw [boost, run_look] at accepted
  split at accepted
  · next ahead =>
      obtain ⟨caret, after, caretKind, rfl⟩ := nextIs_eq_true_iff.mp ahead
      simp only [run_within_eq_ok_iff, run_bind_eq_ok_iff, run_advance_eq_ok_iff,
        run_takeOneOf_eq_ok_iff, run_pure_eq_ok_iff] at accepted
      obtain ⟨_, _, ⟨_, split⟩, number, _, ⟨token, numberSame, rfl⟩, rfl, rfl⟩ := accepted
      cases split
      exact ⟨[caret, token], rfl, .present caretKind numberSame⟩
  · obtain ⟨rfl, rfl⟩ := run_pure_eq_ok_iff.mp accepted
    exact ⟨[], rfl, .absent⟩

/-!
## Tests
-/

theorem term_written {scope : Scope} : term.Writes (Test.Written scope) := by
  intro tokens rest test accepted
  simp only [term, run_within_eq_ok_iff, run_bind_eq_ok_iff, run_takeOneOf_eq_ok_iff,
    run_pure_eq_ok_iff] at accepted
  obtain ⟨word, _, ⟨token, wordSame, rfl⟩, number, _, loosened, rfl, rfl⟩ := accepted
  obtain ⟨suffix, rfl, suffixWritten⟩ := fuzziness_written loosened
  exact ⟨token :: suffix, rfl, .term .absent wordSame suffixWritten⟩

theorem phrase_written {scope : Scope} : phrase.Writes (Test.Written scope) := by
  intro tokens rest test accepted
  simp only [phrase, run_within_eq_ok_iff, run_bind_eq_ok_iff, run_take_eq_ok_iff,
    run_pure_eq_ok_iff] at accepted
  obtain ⟨text, _, ⟨token, textSame, rfl⟩, number, _, loosened, rfl, rfl⟩ := accepted
  obtain ⟨suffix, rfl, suffixWritten⟩ := slop_written loosened
  exact ⟨token :: suffix, rfl, .phrase .absent textSame suffixWritten⟩

theorem exactTest_written {scope : Scope} : (exactTest scope).Writes (Test.Written scope) := by
  intro tokens rest test accepted
  simp only [exactTest, run_within_eq_ok_iff, run_bind_eq_ok_iff, run_take_eq_ok_iff,
    run_look] at accepted
  obtain ⟨_, _, ⟨equals, equalsSame, rfl⟩, field, _, qualified, decided⟩ := accepted
  obtain ⟨qualifier, rfl, qualifierWritten⟩ := optionalFieldQualifier_written qualified
  split at decided
  · simp only [run_bind_eq_ok_iff, run_take_eq_ok_iff, run_pure_eq_ok_iff] at decided
    obtain ⟨text, _, ⟨token, textSame, rfl⟩, number, _, loosened, rfl, rfl⟩ := decided
    obtain ⟨suffix, rfl, suffixWritten⟩ := slop_written loosened
    exact ⟨equals :: qualifier ++ token :: suffix, by simp,
      .exactPhrase equalsSame.kind_eq qualifierWritten textSame suffixWritten⟩
  · simp only [run_bind_eq_ok_iff, run_takeOneOf_eq_ok_iff, run_pure_eq_ok_iff] at decided
    obtain ⟨word, _, ⟨token, wordSame, rfl⟩, number, _, loosened, rfl, rfl⟩ := decided
    obtain ⟨suffix, rfl, suffixWritten⟩ := fuzziness_written loosened
    exact ⟨equals :: qualifier ++ token :: suffix, by simp,
      .exactTerm equalsSame.kind_eq qualifierWritten wordSame suffixWritten⟩

theorem synonym_written {scope : Scope} : (synonym scope).Writes (Test.Written scope) := by
  intro tokens rest test accepted
  simp only [synonym, run_within_eq_ok_iff, run_bind_eq_ok_iff, run_take_eq_ok_iff,
    run_takeOneOf_eq_ok_iff, run_pure_eq_ok_iff] at accepted
  obtain ⟨_, _, ⟨tilde, tildeSame, rfl⟩, field, _, qualified, word, _, ⟨token, wordSame, rfl⟩,
    number, _, loosened, rfl, rfl⟩ := accepted
  obtain ⟨qualifier, rfl, qualifierWritten⟩ := optionalFieldQualifier_written qualified
  obtain ⟨suffix, rfl, suffixWritten⟩ := fuzziness_written loosened
  exact ⟨tilde :: qualifier ++ token :: suffix, by simp,
    .synonym tildeSame.kind_eq qualifierWritten wordSame suffixWritten⟩

theorem range_written : range.Writes Test.RangeWritten := by
  intro tokens rest test accepted
  simp only [range, run_within_eq_ok_iff, run_look] at accepted
  split at accepted
  · next ahead =>
      obtain ⟨opening, after, opens, rfl⟩ := nextIn_eq_true_iff.mp ahead
      simp only [run_bind_eq_ok_iff, run_advance_eq_ok_iff, run_take_eq_ok_iff,
        run_takeOneOf_eq_ok_iff, run_pure_eq_ok_iff] at accepted
      obtain ⟨_, _, ⟨_, split⟩, low, _, ⟨first, lowSame, rfl⟩, _, _, ⟨upTo, upToSame, rfl⟩, high,
        _, ⟨second, highSame, rfl⟩, closer, _, ⟨closing, closerSame, rfl⟩, rfl, rfl⟩ := accepted
      cases split
      refine ⟨[opening, first, upTo, second, closing], rfl,
        .bracketed ?opens lowSame upToSame.kind_eq highSame ?closes⟩
      case opens =>
        simp only [List.mem_cons, List.not_mem_nil, or_false] at opens
        rcases opens with kind | kind <;> simp [nextIs, kind, Closure.opening]
      case closes =>
        have closes := closerSame.kind_mem
        simp only [TokenKind.rangeClosers, List.mem_cons, List.not_mem_nil, or_false] at closes
        rcases closes with kind | kind <;> simp [closerSame.kind, kind, Closure.closing]
  · simp only [run_bind_eq_ok_iff, run_take_eq_ok_iff, run_takeOneOf_eq_ok_iff,
      run_pure_eq_ok_iff] at accepted
    obtain ⟨low, _, ⟨first, lowSame, rfl⟩, _, _, ⟨dots, dotsSame, rfl⟩, high, _,
      ⟨second, highSame, rfl⟩, rfl, rfl⟩ := accepted
    exact ⟨[first, dots, second], rfl, .dotted lowSame dotsSame.kind_eq highSame⟩

theorem distance_written : distance.Writes Test.DistanceWritten := by
  intro tokens rest limit accepted
  rw [distance, run_look] at accepted
  split at accepted
  · next ahead =>
      obtain ⟨opening, after, opens, rfl⟩ := nextIs_eq_true_iff.mp ahead
      simp only [run_bind_eq_ok_iff, run_advance_eq_ok_iff, run_take_eq_ok_iff,
        run_pure_eq_ok_iff, run_look] at accepted
      obtain ⟨_, _, ⟨_, split⟩, limit, _, limited, _, _, ⟨closing, closingSame, rfl⟩, rfl, rfl⟩ :=
        accepted
      cases split
      split at limited
      · simp only [run_bind_eq_ok_iff, run_take_eq_ok_iff, run_pure_eq_ok_iff] at limited
        obtain ⟨number, _, ⟨token, numberSame, rfl⟩, rfl, rfl⟩ := limited
        exact ⟨[opening, token, closing], rfl, .limited opens numberSame closingSame.kind_eq⟩
      · obtain ⟨rfl, rfl⟩ := run_pure_eq_ok_iff.mp limited
        exact ⟨[opening, closing], rfl, .unspecified opens closingSame.kind_eq⟩
  · obtain ⟨rfl, rfl⟩ := run_pure_eq_ok_iff.mp accepted
    exact ⟨[], rfl, .absent⟩

/-- With no steps to read none are read; otherwise there is at least one. -/
theorem proximitySteps_written {limit : Nat} :
    (proximitySteps limit).Writes fun steps taken =>
      Test.StepsWritten steps taken ∧ (limit ≠ 0 → steps ≠ []) := by
  induction limit with
  | zero =>
      intro tokens rest steps accepted
      obtain ⟨rfl, rfl⟩ := run_pure_eq_ok_iff.mp accepted
      exact ⟨[], rfl, .nil, fun positive => absurd rfl positive⟩
  | succ limit ih =>
      intro tokens rest steps accepted
      simp only [proximitySteps, run_bind_eq_ok_iff, run_take_eq_ok_iff, run_takeOneOf_eq_ok_iff,
        run_look] at accepted
      obtain ⟨_, _, ⟨star, starSame, rfl⟩, apart, _, measured, word, _, ⟨token, wordSame, rfl⟩,
        decided⟩ := accepted
      obtain ⟨between, rfl, distanceWritten⟩ := distance_written measured
      split at decided
      · simp only [run_bind_eq_ok_iff, run_pure_eq_ok_iff] at decided
        obtain ⟨later, _, laterRead, rfl, rfl⟩ := decided
        obtain ⟨taken, rfl, laterWritten, _⟩ := ih laterRead
        exact ⟨star :: between ++ token :: taken, by simp,
          .cons starSame.kind_eq distanceWritten wordSame laterWritten, by simp⟩
      · obtain ⟨rfl, rfl⟩ := run_pure_eq_ok_iff.mp decided
        exact ⟨star :: between ++ [token], by simp,
          .cons starSame.kind_eq distanceWritten wordSame .nil, by simp⟩

theorem proximity_written : proximity.Writes Test.ProximityWritten := by
  intro tokens rest test accepted
  simp only [proximity, run_within_eq_ok_iff, run_bind_eq_ok_iff, run_takeOneOf_eq_ok_iff,
    run_pure_eq_ok_iff, run_look] at accepted
  obtain ⟨first, _, ⟨token, firstSame, rfl⟩, steps, _, stepsRead, rfl, rfl⟩ := accepted
  obtain ⟨taken, rfl, stepsWritten, nonempty⟩ := proximitySteps_written stepsRead
  exact ⟨token :: taken, rfl, .mk firstSame stepsWritten (nonempty (Nat.succ_ne_zero _))⟩

theorem proximityAhead_accepted {tokens rest : List Token} {found : Bool}
    (accepted : proximityAhead.run tokens = .ok (found, rest)) : tokens = rest := by
  rw [proximityAhead, run_look] at accepted
  split at accepted
  · exact (run_wouldSucceed_eq_ok_iff.mp accepted).2
  · exact (run_pure_eq_ok_iff.mp accepted).2

theorem templateFields_written {limit : Nat} :
    (templateFields limit).Writes fun fields taken =>
      Test.FieldsWritten fields taken ∧ (limit ≠ 0 → fields ≠ []) := by
  induction limit with
  | zero =>
      intro tokens rest fields accepted
      obtain ⟨rfl, rfl⟩ := run_pure_eq_ok_iff.mp accepted
      exact ⟨[], rfl, .nil, fun positive => absurd rfl positive⟩
  | succ limit ih =>
      intro tokens rest fields accepted
      simp only [templateFields, run_bind_eq_ok_iff, run_look] at accepted
      obtain ⟨field, _, named, _, after, skipped, decided⟩ := accepted
      obtain ⟨front, rfl, fieldWritten⟩ := anyFieldReference_written named
      have later : ∃ others taken, fields = field :: others ∧ after = taken ++ rest ∧
          Test.FieldsWritten others taken := by
        split at decided
        · obtain ⟨rfl, rfl⟩ := run_pure_eq_ok_iff.mp decided
          exact ⟨[], [], rfl, rfl, .nil⟩
        · simp only [run_bind_eq_ok_iff, run_pure_eq_ok_iff] at decided
          obtain ⟨others, _, othersRead, rfl, rfl⟩ := decided
          obtain ⟨taken, rfl, othersWritten, _⟩ := ih othersRead
          exact ⟨others, taken, rfl, rfl, othersWritten⟩
      obtain ⟨others, taken, rfl, rfl, othersWritten⟩ := later
      rcases skip_accepted skipped with rfl | ⟨comma, commaKind, rfl⟩
      · exact ⟨front ++ taken, by simp, .cons fieldWritten othersWritten, by simp⟩
      · exact ⟨front ++ comma :: taken, by simp, .comma fieldWritten commaKind othersWritten,
          by simp⟩

theorem template_written : template.Writes (Test.Written .query) := by
  intro tokens rest test accepted
  simp only [template, run_within_eq_ok_iff, run_bind_eq_ok_iff, run_take_eq_ok_iff,
    run_look] at accepted
  obtain ⟨_, _, ⟨percent, percentSame, rfl⟩, decided⟩ := accepted
  split at decided
  · next ahead =>
      obtain ⟨opening, after, opens, rfl⟩ := nextIs_eq_true_iff.mp ahead
      simp only [run_bind_eq_ok_iff, run_advance_eq_ok_iff, run_look] at decided
      obtain ⟨_, _, ⟨_, split⟩, decided⟩ := decided
      cases split
      split at decided
      · exact absurd decided run_fail_ne_ok
      · simp only [run_bind_eq_ok_iff, run_take_eq_ok_iff, run_pure_eq_ok_iff] at decided
        obtain ⟨fields, _, fieldsRead, _, _, ⟨closing, closingSame, rfl⟩, rfl, rfl⟩ := decided
        obtain ⟨taken, rfl, fieldsWritten, nonempty⟩ := templateFields_written fieldsRead
        exact ⟨percent :: opening :: taken ++ [closing], by simp,
          .templates percentSame.kind_eq opens fieldsWritten (nonempty (Nat.succ_ne_zero _))
            closingSame.kind_eq⟩
  · simp only [run_bind_eq_ok_iff, run_pure_eq_ok_iff] at decided
    obtain ⟨field, _, named, rfl, rfl⟩ := decided
    obtain ⟨taken, rfl, fieldWritten⟩ := anyFieldReference_written named
    exact ⟨percent :: taken, rfl, .template percentSame.kind_eq fieldWritten⟩

/-!
## Tests that hold operands
-/

/-- Every list of operands that a reading accepts is written so in a scope. -/
abbrev WritesOperands (scope : Scope) (operands : Reading (List Operand)) : Prop :=
  operands.Writes fun read => Part.Written scope (.operands read)

theorem group_written {scope : Scope} {operands : Reading (List Operand)}
    (inner : WritesOperands scope operands) {tokens rest : List Token} {read : List Operand}
    (accepted : (group scope operands).run tokens = .ok (read, rest)) :
    ∃ opening taken closing, tokens = (opening :: taken ++ [closing]) ++ rest ∧
      opening.kind = .lparen ∧ Part.Written scope (.operands read) taken ∧
      closing.kind = .rparen := by
  simp only [group, run_within_eq_ok_iff, run_bind_eq_ok_iff, run_take_eq_ok_iff,
    run_pure_eq_ok_iff] at accepted
  obtain ⟨_, _, ⟨opening, openingSame, rfl⟩, read, _, innerRead, _, _,
    ⟨closing, closingSame, rfl⟩, rfl, rfl⟩ := accepted
  obtain ⟨taken, rfl, written⟩ := inner innerRead
  exact ⟨opening, taken, closing, by simp, openingSame.kind_eq, written, closingSame.kind_eq⟩

/-- What follows a field and a colon makes a body of the two together. -/
theorem fieldValue_written {operands : Scope → Reading (List Operand)}
    (inner : WritesOperands .fieldGroup (operands .fieldGroup)) {field : FieldReference}
    {qualifier : List Token} (qualifying : field.Qualifying qualifier) :
    (fieldValue field operands).Writes fun body taken =>
      Part.Written .query (.body body) (qualifier ++ taken) := by
  intro tokens rest body accepted
  simp only [fieldValue, run_bind_eq_ok_iff, run_pure_eq_ok_iff, run_look] at accepted
  obtain ⟨shape, _, ⟨_, rfl⟩, decided⟩ := accepted
  split at decided
  · simp only [run_bind_eq_ok_iff, run_pure_eq_ok_iff] at decided
    obtain ⟨read, _, groupRead, rfl, rfl⟩ := decided
    obtain ⟨opening, taken, closing, rfl, opens, written, closes⟩ := group_written inner groupRead
    exact ⟨opening :: taken ++ [closing], rfl, .fieldGroup qualifying opens written closes⟩
  · simp only [run_bind_eq_ok_iff, run_pure_eq_ok_iff] at decided
    obtain ⟨test, _, rangeRead, rfl, rfl⟩ := decided
    obtain ⟨taken, rfl, written⟩ := range_written rangeRead
    exact ⟨taken, rfl, .fieldSpan qualifying (.range written)⟩
  · rw [run_bind_eq_ok_iff] at decided
    obtain ⟨found, _, looked, decided⟩ := decided
    obtain rfl := proximityAhead_accepted looked
    split at decided
    · simp only [run_bind_eq_ok_iff, run_pure_eq_ok_iff] at decided
      obtain ⟨test, _, proximityRead, rfl, rfl⟩ := decided
      obtain ⟨taken, rfl, written⟩ := proximity_written proximityRead
      exact ⟨taken, rfl, .fieldSpan qualifying (.proximity written)⟩
    · split at decided
      · simp only [run_bind_eq_ok_iff, run_takeOneOf_eq_ok_iff, run_pure_eq_ok_iff] at decided
        obtain ⟨word, _, ⟨token, wordSame, rfl⟩, number, _, loosened, rfl, rfl⟩ := decided
        obtain ⟨suffix, rfl, suffixWritten⟩ := fuzziness_written loosened
        exact ⟨token :: suffix, rfl, .test (.term (.present qualifying) wordSame suffixWritten)⟩
      · simp only [run_bind_eq_ok_iff, run_take_eq_ok_iff, run_pure_eq_ok_iff] at decided
        obtain ⟨text, _, ⟨token, textSame, rfl⟩, number, _, loosened, rfl, rfl⟩ := decided
        obtain ⟨suffix, rfl, suffixWritten⟩ := slop_written loosened
        exact ⟨token :: suffix, rfl, .test (.phrase (.present qualifying) textSame suffixWritten)⟩
      · rw [run_look] at decided
        exact absurd decided run_fail_ne_ok

theorem fieldQualified_written {operands : Scope → Reading (List Operand)}
    (inner : WritesOperands .fieldGroup (operands .fieldGroup)) {qualified : Bool} :
    (fieldQualified qualified operands).Writes fun body => Part.Written .query (.body body) := by
  intro tokens rest body accepted
  simp only [fieldQualified, run_within_eq_ok_iff, run_bind_eq_ok_iff] at accepted
  obtain ⟨field, _, qualifierRead, valueRead⟩ := accepted
  obtain ⟨qualifier, rfl, qualifying⟩ := fieldQualifier_written qualifierRead
  obtain ⟨taken, rfl, written⟩ := fieldValue_written inner qualifying valueRead
  exact ⟨qualifier ++ taken, by simp, written⟩

/-- A template begins in the query only. -/
theorem scope_of_testShape_template {scope : Scope} {tokens : List Token}
    (shape : testShape? scope tokens = some .template) : scope = .query := by
  unfold testShape? at shape
  grind

theorem body_written {scope : Scope} {reading : Reading Test}
    (written : reading.Writes (Test.Written scope)) :
    Reading.Writes (do return Body.test (← reading)) fun body =>
      Part.Written scope (.body body) := by
  intro tokens rest body accepted
  simp only [run_bind_eq_ok_iff, run_pure_eq_ok_iff] at accepted
  obtain ⟨test, _, testRead, rfl, rfl⟩ := accepted
  obtain ⟨taken, rfl, testWritten⟩ := written testRead
  exact ⟨taken, rfl, .test testWritten⟩

theorem plainTest_written {scope : Scope} {operands : Scope → Reading (List Operand)}
    (inner : WritesOperands scope (operands scope)) :
    (plainTest scope operands).Writes fun body => Part.Written scope (.body body) := by
  intro tokens rest body accepted
  rw [plainTest, run_look] at accepted
  cases shaped : testShape? scope tokens with
  | none =>
      rw [shaped] at accepted
      exact absurd accepted run_fail_ne_ok
  | some shape =>
      rw [shaped] at accepted
      cases shape with
      | term => exact body_written term_written accepted
      | phrase => exact body_written phrase_written accepted
      | exact => exact body_written exactTest_written accepted
      | synonym => exact body_written synonym_written accepted
      | range =>
          refine body_written (range_written.mono ?_) accepted
          intro test taken written
          exact .span (.range written)
      | group =>
          simp only [run_bind_eq_ok_iff, run_pure_eq_ok_iff] at accepted
          obtain ⟨read, _, groupRead, rfl, rfl⟩ := accepted
          obtain ⟨opening, taken, closing, rfl, opens, written, closes⟩ :=
            group_written inner groupRead
          exact ⟨opening :: taken ++ [closing], rfl, .group opens written closes⟩
      | template =>
          obtain rfl := scope_of_testShape_template shaped
          exact body_written template_written accepted

/-- Looking for a field takes nothing, and finds none outside the query. -/
theorem testQualifierForm_accepted {scope : Scope} {tokens rest : List Token} {form : Option Bool}
    (accepted : (testQualifierForm scope).run tokens = .ok (form, rest)) :
    tokens = rest ∧ (form ≠ none → scope = .query) := by
  rw [testQualifierForm, run_look] at accepted
  split at accepted
  · next allowed => exact ⟨fieldQualifierForm_accepted accepted, fun _ => allowed.1⟩
  · obtain ⟨rfl, rfl⟩ := run_pure_eq_ok_iff.mp accepted
    exact ⟨rfl, fun found => absurd rfl found⟩

theorem test_written {operands : Scope → Reading (List Operand)}
    (inner : ∀ scope, WritesOperands scope (operands scope)) {scope : Scope} :
    (test scope operands).Writes fun body => Part.Written scope (.body body) := by
  intro tokens rest body accepted
  simp only [test, run_within_eq_ok_iff, run_bind_eq_ok_iff] at accepted
  obtain ⟨found, _, looked, decided⟩ := accepted
  obtain rfl := proximityAhead_accepted looked
  split at decided
  · refine body_written (proximity_written.mono ?_) decided
    intro test taken written
    exact .span (.proximity written)
  · rw [run_bind_eq_ok_iff] at decided
    obtain ⟨form, _, formRead, decided⟩ := decided
    obtain ⟨rfl, allowed⟩ := testQualifierForm_accepted formRead
    cases form with
    | none => exact plainTest_written (inner scope) decided
    | some qualified =>
        obtain rfl := allowed (by simp)
        exact fieldQualified_written (inner .fieldGroup) decided

end SearchQuery.Grammar
