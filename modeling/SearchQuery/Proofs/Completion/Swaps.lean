import SearchQuery.Proofs.Completion.Chains
import SearchQuery.Proofs.Written.Operands
set_option autoImplicit false

/-!
# Other tokens behind a test

What is read stays the same when the tokens behind it are swapped for others, provided that these do
not carry it on. The conditions are met by tokens that agree with the old ones up to a cut, and
where nothing more is or a parenthesis is closed.
-/

namespace SearchQuery

open Reading Grammar

/-- The tokens behind a test may be swapped for others. -/
structure Swapped (old new : List Token) : Prop where
  noDots : nextIs .dotDot new = false
  noColon : nextIs .colon new = false
  sameSuffix : numericSuffixAhead new = true → ∃ first second oldRest newRest,
    old = first :: second :: oldRest ∧ new = first :: second :: newRest
  noStar : nextIs .star old = false → nextIs .star new = false
  begins : ∀ front, front ≠ [] → opened front = 0 →
    BeginsProximity (front ++ new) → BeginsProximity (front ++ old)

/-- The tokens behind an operand may be swapped for others. -/
structure SwappedBehind (old new : List Token) : Prop extends Swapped old new where
  noCaret : nextIs .caret new = false

section

variable {old new : List Token}

theorem Closing.ended {tokens : List Token} (closing : Closing tokens) : Ended tokens := by
  cases tokens with
  | nil => exact .all
  | cons token rest => exact .closed (closing token List.mem_cons_self)

theorem nextIn_append_of_ne_nil {front : List Token} (filled : front ≠ [])
    (kinds : List TokenKind) (rest : List Token) : nextIn kinds (front ++ rest) = nextIn kinds front := by
  cases front with
  | nil => exact absurd rfl filled
  | cons token front => rfl

theorem nextIs_append_of_ne_nil {front : List Token} (filled : front ≠ []) (kind : TokenKind)
    (rest : List Token) : nextIs kind (front ++ rest) = nextIs kind front := by
  cases front with
  | nil => exact absurd rfl filled
  | cons token front => rfl

theorem swapped_of_cut {front ahead core closers : List Token} (cut : Cut front ahead core)
    (filled : front ≠ []) (closing : Closing closers)
    (unlike : nextIn [.dotDot, .colon] front = false) :
    Swapped (front ++ ahead) (front ++ (core ++ closers)) := by
  constructor
  · rw [nextIs_append_of_ne_nil filled]
    exact nextIs_eq_false_of_nextIn unlike (by simp)
  · rw [nextIs_append_of_ne_nil filled]
    exact nextIs_eq_false_of_nextIn unlike (by simp)
  · intro suffix
    rcases front with _ | ⟨first, _ | ⟨second, front⟩⟩
    · exact absurd rfl filled
    · obtain ⟨tilde, rest, kind, split⟩ := numericSuffixAhead_eq_true suffix
      obtain ⟨rfl, _⟩ := List.cons.inj split
      have noNumber := cut.loose first rfl kind
      exfalso
      cases core with
      | nil =>
          cases closers with
          | nil => cases suffix
          | cons next closers =>
              have closes := closing next List.mem_cons_self
              simp [numericSuffixAhead, closes, TokenKind.isNumber, TokenKind.numbers] at suffix
      | cons next core =>
          simp only [nextIn] at noNumber
          simp only [List.cons_append, List.nil_append, numericSuffixAhead, TokenKind.isNumber,
            noNumber, Bool.and_false, Bool.false_eq_true] at suffix
    · exact ⟨first, second, front ++ ahead, front ++ (core ++ closers), rfl, rfl⟩
  · rw [nextIs_append_of_ne_nil filled, nextIs_append_of_ne_nil filled]
    exact id
  · intro outer _ _ begins
    rw [← List.append_assoc] at begins ⊢
    exact begins.of_cut (cut.append_left filled outer) closing (by simp [filled])

/-- Tokens in front of swapped ones, such as later operands are written with. -/
theorem Swapped.append_left (swapped : Swapped old new) {front : List Token} (filled : front ≠ [])
    (closed : opened front = 0) (unlike : nextIn [.dotDot, .colon] front = false)
    (loose : ∀ tilde, front = [tilde] → tilde.kind ≠ .tilde) :
    Swapped (front ++ old) (front ++ new) := by
  constructor
  · rw [nextIs_append_of_ne_nil filled]
    exact nextIs_eq_false_of_nextIn unlike (by simp)
  · rw [nextIs_append_of_ne_nil filled]
    exact nextIs_eq_false_of_nextIn unlike (by simp)
  · intro suffix
    rcases front with _ | ⟨first, _ | ⟨second, front⟩⟩
    · exact absurd rfl filled
    · obtain ⟨tilde, rest, kind, split⟩ := numericSuffixAhead_eq_true suffix
      obtain ⟨rfl, _⟩ := List.cons.inj split
      exact absurd kind (loose first rfl)
    · exact ⟨first, second, front ++ old, front ++ new, rfl, rfl⟩
  · rw [nextIs_append_of_ne_nil filled, nextIs_append_of_ne_nil filled]
    exact id
  · intro outer _ outerClosed begins
    rw [← List.append_assoc] at begins ⊢
    exact swapped.begins _ (by simp [filled]) (by rw [opened_append, outerClosed, closed]; rfl)
      begins

/-- What has been read may be all there is, or all that the parentheses around it hold. -/
theorem swappedBehind_of_ended (noStar : nextIs .star old = false) (ended : Ended new) :
    SwappedBehind old new := by
  have settled := ended.settled
  have noStar' := settled.nextIs_eq_false (show TokenKind.star ∈ _ by decide)
  refine ⟨⟨settled.nextIs_eq_false (by decide), settled.nextIs_eq_false (by decide), ?suffix,
    fun _ => noStar', ?begins⟩, ended.noCaret⟩
  case suffix =>
    intro suffix
    rw [numericSuffixAhead_eq_false (settled.nextIs_eq_false (by decide))] at suffix
    cases suffix
  case begins =>
    intro front filled closed begins
    have cut := Cut.of_noStar noStar front
    cases ended with
    | all =>
        have none : Closing [] := by simp [Closing]
        exact begins.of_cut cut none filled
    | @closed closing _ closes =>
        have one : Closing [closing] := by simp [Closing, closes]
        have alone : BeginsProximity (front ++ [closing]) := begins.of_closing closes closed
        exact alone.of_cut cut one filled

/-!
## Tests
-/

theorem SuffixWritten.Unloosened.swapped {suffix : List Token}
    (unloosened : SuffixWritten.Unloosened suffix old) (swapped : Swapped old new) :
    SuffixWritten.Unloosened suffix new := by
  constructor
  · intro absent
    cases ahead : numericSuffixAhead new with
    | false => rfl
    | true =>
        obtain ⟨first, second, oldRest, newRest, rfl, rfl⟩ := swapped.sameSuffix ahead
        exact ahead.symm.trans (unloosened.absent absent)
  · intro tilde number present
    cases ahead : numericSuffixAhead new with
    | true =>
        obtain ⟨first, second, oldRest, newRest, rfl, rfl⟩ := swapped.sameSuffix ahead
        exact unloosened.unstacked tilde number present
    | false =>
        cases new with
        | nil => rfl
        | cons next rest => rw [stackedSuffixAhead, ahead, Bool.and_false]

theorem SuffixWritten.swapped_nextIs_eq_false {kinds : List TokenKind} {read : Option (Leaf kinds)}
    {suffix : List Token} (written : SuffixWritten .tilde read suffix) (swapped : Swapped old new) :
    nextIs .dotDot (suffix ++ new) = false ∧ nextIs .colon (suffix ++ new) = false :=
  ⟨written.nextIs_append (by decide) swapped.noDots,
    written.nextIs_append (by decide) swapped.noColon⟩

theorem run_fuzziness_swapped (swapped : Swapped old new) {tokens : List Token}
    {read : Option Number} (accepted : fuzziness.run tokens = .ok (read, old)) :
    ∃ suffix, tokens = suffix ++ old ∧ SuffixWritten .tilde read suffix ∧
      fuzziness.run (suffix ++ new) = .ok (read, new) := by
  obtain ⟨suffix, rfl, written⟩ := fuzziness_written accepted
  have unloosened := written.run_fuzziness_iff.mp accepted
  exact ⟨suffix, rfl, written, written.run_fuzziness_iff.mpr (unloosened.swapped swapped)⟩

theorem run_slop_swapped (swapped : Swapped old new) {tokens : List Token}
    {read : Option WholeNumber} (accepted : slop.run tokens = .ok (read, old)) :
    ∃ suffix, tokens = suffix ++ old ∧ SuffixWritten .tilde read suffix ∧
      slop.run (suffix ++ new) = .ok (read, new) := by
  obtain ⟨suffix, rfl, written⟩ := slop_written accepted
  have unloosened := written.run_slop_iff.mp accepted
  exact ⟨suffix, rfl, written, written.run_slop_iff.mpr (unloosened.swapped swapped)⟩

theorem run_proximityAhead_swapped (swapped : Swapped old new) {front : List Token}
    (filled : front ≠ []) (closed : opened front = 0)
    (absent : proximityAhead.run (front ++ old) = .ok (false, front ++ old)) :
    proximityAhead.run (front ++ new) = .ok (false, front ++ new) := by
  rw [run_proximityAhead_eq] at absent ⊢
  cases found : (proximity.run (front ++ new)).isOk with
  | false => rfl
  | true =>
      have begins := swapped.begins front filled closed (isOk_run_proximity_iff.mp found)
      rw [isOk_run_proximity_iff.mpr begins] at absent
      cases absent

end

/-- Operands are read the same where nothing more is, or where they are closed. -/
structure Endable (operands : Reading (List Operand)) : Prop where
  noStar : ∀ ⦃tokens rest : List Token⦄ ⦃read : List Operand⦄,
    operands.run tokens = .ok (read, rest) → nextIs .star rest = false
  again : ∀ ⦃front old new : List Token⦄ ⦃read : List Operand⦄, Ended new →
    operands.run (front ++ old) = .ok (read, old) → operands.run (front ++ new) = .ok (read, new)

section

variable {scope : Scope} {operands : Scope → Reading (List Operand)} {old new : List Token}

theorem run_group_swapped (writes : WritesOperands scope (operands scope))
    (endable : Endable (operands scope)) {tokens : List Token} {read : List Operand}
    (accepted : (group scope (operands scope)).run tokens = .ok (read, old)) (new : List Token) :
    ∃ opening inner, tokens = opening :: inner ++ old ∧ opening.kind = .lparen ∧
      (group scope (operands scope)).run (opening :: inner ++ new) = .ok (read, new) := by
  simp only [group, run_within_eq_ok_iff, run_bind_eq_ok_iff, run_take_eq_ok_iff,
    run_pure_eq_ok_iff] at accepted
  obtain ⟨_, _, ⟨opening, opens, rfl⟩, read, _, innerRead, _, _, ⟨closing, closes, rfl⟩, rfl,
    rfl⟩ := accepted
  obtain ⟨inner, rfl, _⟩ := writes innerRead
  refine ⟨opening, inner ++ [closing], by simp, opens.kind_eq, ?_⟩
  simp only [group, run_within_eq_ok_iff, run_bind_eq_ok_iff, run_take_eq_ok_iff,
    run_pure_eq_ok_iff]
  refine ⟨_, _, ⟨opening, opens, rfl⟩, read, _, ?_, _, _, ⟨closing, closes, rfl⟩, rfl, rfl⟩
  simpa using endable.again (.closed closes.kind_eq) innerRead

theorem run_exactTest_swapped (swapped : Swapped old new) {front : List Token} {test : Test}
    (accepted : (exactTest scope).run (front ++ old) = .ok (test, old)) :
    ∃ equals inner, front = equals :: inner ∧ equals.kind = .equals ∧
      (exactTest scope).run (equals :: (inner ++ new)) = .ok (test, new) := by
  simp only [exactTest, run_within_eq_ok_iff, run_bind_eq_ok_iff, run_take_eq_ok_iff,
    run_look] at accepted
  obtain ⟨_, _, ⟨equals, marks, split⟩, field, _, qualified, decided⟩ := accepted
  obtain ⟨qualifier, rfl, qualifierWritten⟩ := optionalFieldQualifier_written qualified
  split at decided
  · simp only [run_bind_eq_ok_iff, run_take_eq_ok_iff, run_pure_eq_ok_iff] at decided
    obtain ⟨text, _, ⟨token, textSame, rfl⟩, slop, rest, loosened, rfl, rfl⟩ := decided
    obtain ⟨suffix, rfl, suffixWritten, read⟩ := run_slop_swapped swapped loosened
    obtain ⟨_, noColon⟩ := suffixWritten.swapped_nextIs_eq_false swapped
    have same : front ++ rest = equals :: (qualifier ++ token :: suffix) ++ rest := by
      simpa using split
    refine ⟨equals, _, List.append_cancel_right same, marks.kind_eq, ?_⟩
    simpa using
      Test.run_exactTest_phrase marks.kind_eq qualifierWritten textSame noColon read
  · simp only [run_bind_eq_ok_iff, run_takeOneOf_eq_ok_iff, run_pure_eq_ok_iff] at decided
    obtain ⟨word, _, ⟨token, wordSame, rfl⟩, fuzziness, rest, loosened, rfl, rfl⟩ := decided
    obtain ⟨suffix, rfl, suffixWritten, read⟩ := run_fuzziness_swapped swapped loosened
    obtain ⟨_, noColon⟩ := suffixWritten.swapped_nextIs_eq_false swapped
    have same : front ++ rest = equals :: (qualifier ++ token :: suffix) ++ rest := by
      simpa using split
    refine ⟨equals, _, List.append_cancel_right same, marks.kind_eq, ?_⟩
    simpa using
      Test.run_exactTest_term marks.kind_eq qualifierWritten wordSame noColon read

theorem run_synonym_swapped (swapped : Swapped old new) {front : List Token} {test : Test}
    (accepted : (synonym scope).run (front ++ old) = .ok (test, old)) :
    ∃ tilde inner, front = tilde :: inner ∧ tilde.kind = .tilde ∧
      (synonym scope).run (tilde :: (inner ++ new)) = .ok (test, new) := by
  simp only [synonym, run_within_eq_ok_iff, run_bind_eq_ok_iff, run_take_eq_ok_iff,
    run_takeOneOf_eq_ok_iff, run_pure_eq_ok_iff] at accepted
  obtain ⟨_, _, ⟨tilde, marks, split⟩, field, _, qualified, word, _, ⟨token, wordSame, rfl⟩,
    fuzziness, rest, loosened, rfl, rfl⟩ := accepted
  obtain ⟨qualifier, rfl, qualifierWritten⟩ := optionalFieldQualifier_written qualified
  obtain ⟨suffix, rfl, suffixWritten, read⟩ := run_fuzziness_swapped swapped loosened
  obtain ⟨_, noColon⟩ := suffixWritten.swapped_nextIs_eq_false swapped
  have same : front ++ rest = tilde :: (qualifier ++ token :: suffix) ++ rest := by
    simpa using split
  refine ⟨tilde, _, List.append_cancel_right same, marks.kind_eq, ?_⟩
  simpa using Test.run_synonym marks.kind_eq qualifierWritten wordSame noColon read

theorem run_template_swapped (swapped : Swapped old new) {front : List Token} {test : Test}
    (accepted : template.run (front ++ old) = .ok (test, old)) :
    ∃ percent inner, front = percent :: inner ∧ percent.kind = .percent ∧
      template.run (percent :: (inner ++ new)) = .ok (test, new) := by
  simp only [template, run_within_eq_ok_iff, run_bind_eq_ok_iff, run_take_eq_ok_iff,
    run_look] at accepted
  obtain ⟨_, _, ⟨percent, marks, split⟩, decided⟩ := accepted
  split at decided
  · next ahead =>
      obtain ⟨opening, after, opens, rfl⟩ := nextIs_eq_true_iff.mp ahead
      simp only [run_bind_eq_ok_iff, run_advance_eq_ok_iff, run_look] at decided
      obtain ⟨_, _, ⟨_, opened⟩, decided⟩ := decided
      cases opened
      split at decided
      · exact absurd decided run_fail_ne_ok
      · simp only [run_bind_eq_ok_iff, run_take_eq_ok_iff, run_pure_eq_ok_iff] at decided
        obtain ⟨fields, _, fieldsRead, _, rest, ⟨closing, closes, rfl⟩, rfl, rfl⟩ := decided
        obtain ⟨taken, rfl, fieldsWritten, nonempty⟩ := templateFields_written fieldsRead
        have same : front ++ rest = percent :: (opening :: (taken ++ [closing])) ++ rest := by
          simpa using split
        refine ⟨percent, _, List.append_cancel_right same, marks.kind_eq, ?_⟩
        simpa using Test.run_template_of_several marks.kind_eq opens fieldsWritten
          (nonempty (Nat.succ_ne_zero _)) closes.kind_eq
  · simp only [run_bind_eq_ok_iff, run_pure_eq_ok_iff] at decided
    obtain ⟨field, rest, named, rfl, rfl⟩ := decided
    obtain ⟨taken, rfl, fieldWritten⟩ := anyFieldReference_written named
    have same : front ++ rest = percent :: taken ++ rest := split
    exact ⟨percent, _, List.append_cancel_right same, marks.kind_eq,
      Test.run_template_of_one marks.kind_eq fieldWritten swapped.noColon⟩

/-- A test that no field and no proximity begins. -/
theorem run_test_of_plain_swapped (writes : WritesOperands scope (operands scope))
    (endable : Endable (operands scope)) (swapped : Swapped old new) {front : List Token}
    {body : Body} (noProximity : proximityAhead.run (front ++ new) = .ok (false, front ++ new))
    (accepted : (plainTest scope operands).run (front ++ old) = .ok (body, old)) :
    (test scope operands).run (front ++ new) = .ok (body, new) := by
  rw [plainTest, run_look] at accepted
  cases shaped : testShape? scope (front ++ old) with
  | none =>
      rw [shaped] at accepted
      exact absurd accepted run_fail_ne_ok
  | some shape =>
      rw [shaped] at accepted
      cases shape with
      | term =>
          simp only [term, run_within_eq_ok_iff, run_bind_eq_ok_iff, run_takeOneOf_eq_ok_iff,
            run_pure_eq_ok_iff] at accepted
          obtain ⟨_, _, ⟨word, _, ⟨token, wordSame, split⟩, fuzziness, _, loosened, rfl, rfl⟩, rfl,
            rfl⟩ := accepted
          obtain ⟨suffix, rfl, suffixWritten, read⟩ := run_fuzziness_swapped swapped loosened
          obtain rfl : front = token :: suffix := List.append_cancel_right split
          obtain ⟨noDots, noColon⟩ := suffixWritten.swapped_nextIs_eq_false swapped
          exact Test.run_term wordSame ⟨noDots, noColon, noProximity⟩ read
      | phrase =>
          simp only [phrase, run_within_eq_ok_iff, run_bind_eq_ok_iff, run_take_eq_ok_iff,
            run_pure_eq_ok_iff] at accepted
          obtain ⟨_, _, ⟨text, _, ⟨token, textSame, split⟩, slop, _, loosened, rfl, rfl⟩, rfl,
            rfl⟩ := accepted
          obtain ⟨suffix, rfl, suffixWritten, read⟩ := run_slop_swapped swapped loosened
          obtain rfl : front = token :: suffix := List.append_cancel_right split
          obtain ⟨noDots, noColon⟩ := suffixWritten.swapped_nextIs_eq_false swapped
          exact Test.run_phrase textSame ⟨noDots, noColon, noProximity⟩ read
      | exact =>
          simp only [run_bind_eq_ok_iff, run_pure_eq_ok_iff] at accepted
          obtain ⟨test, _, exactRead, rfl, rfl⟩ := accepted
          obtain ⟨equals, inner, rfl, marks, read⟩ := run_exactTest_swapped swapped exactRead
          refine run_test_of_mark marks (by decide) read ?_
          simp [plainTest, testShape?, marks, TokenKind.isWord, TokenKind.words]
      | synonym =>
          simp only [run_bind_eq_ok_iff, run_pure_eq_ok_iff] at accepted
          obtain ⟨test, _, synonymRead, rfl, rfl⟩ := accepted
          obtain ⟨tilde, inner, rfl, marks, read⟩ := run_synonym_swapped swapped synonymRead
          refine run_test_of_mark marks (by decide) read ?_
          simp [plainTest, testShape?, marks, TokenKind.isWord, TokenKind.words]
      | range =>
          simp only [run_bind_eq_ok_iff, run_pure_eq_ok_iff] at accepted
          obtain ⟨test, _, rangeRead, rfl, rfl⟩ := accepted
          obtain ⟨taken, split, written⟩ := range_written rangeRead
          obtain rfl := List.append_cancel_right split
          exact written.run_test
      | group =>
          simp only [run_bind_eq_ok_iff, run_pure_eq_ok_iff] at accepted
          obtain ⟨inner, _, groupRead, rfl, rfl⟩ := accepted
          obtain ⟨opening, tokens, split, opens, read⟩ :=
            run_group_swapped writes endable groupRead new
          obtain rfl : front = opening :: tokens := List.append_cancel_right split
          exact (run_test_of_group_iff opens).mpr ⟨inner, read, rfl⟩
      | template =>
          obtain rfl := scope_of_testShape_template shaped
          simp only [run_bind_eq_ok_iff, run_pure_eq_ok_iff] at accepted
          obtain ⟨test, _, templateRead, rfl, rfl⟩ := accepted
          obtain ⟨percent, inner, rfl, marks, read⟩ := run_template_swapped swapped templateRead
          refine run_test_of_mark marks (by decide) read ?_
          simp [plainTest, testShape?, marks, TokenKind.isWord, TokenKind.words]

/-- What is read after a field and a colon begins with no other field. -/
theorem run_fieldValue_swapped (writes : WritesOperands .fieldGroup (operands .fieldGroup))
    (endable : Endable (operands .fieldGroup)) (swapped : Swapped old new) {tokens : List Token}
    {field : FieldReference} {body : Body}
    (accepted : (fieldValue field operands).run tokens = .ok (body, old)) :
    ∃ front, tokens = front ++ old ∧ nameAhead (front ++ new) = false ∧
      (fieldValue field operands).run (front ++ new) = .ok (body, new) := by
  simp only [fieldValue, run_bind_eq_ok_iff, run_pure_eq_ok_iff, run_look] at accepted
  obtain ⟨shape, _, ⟨_, rfl⟩, decided⟩ := accepted
  split at decided
  · simp only [run_bind_eq_ok_iff, run_pure_eq_ok_iff] at decided
    obtain ⟨inner, _, groupRead, rfl, rfl⟩ := decided
    obtain ⟨opening, tokens, rfl, opens, read⟩ := run_group_swapped writes endable groupRead new
    exact ⟨opening :: tokens, rfl, nameAhead_of_group opens,
      (run_fieldValue_of_group_iff opens).mpr ⟨inner, read, rfl⟩⟩
  · simp only [run_bind_eq_ok_iff, run_pure_eq_ok_iff] at decided
    obtain ⟨test, _, rangeRead, rfl, rfl⟩ := decided
    obtain ⟨taken, rfl, written⟩ := range_written rangeRead
    exact ⟨taken, rfl, Test.SpanWritten.nameAhead_eq_false (.range written) new,
      written.run_fieldValue⟩
  · rw [run_bind_eq_ok_iff] at decided
    obtain ⟨found, _, looked, decided⟩ := decided
    obtain rfl := proximityAhead_accepted looked
    split at decided
    · simp only [run_bind_eq_ok_iff, run_pure_eq_ok_iff] at decided
      obtain ⟨test, _, proximityRead, rfl, rfl⟩ := decided
      have noStar := swapped.noStar (nextIs_of_run_proximity proximityRead)
      obtain ⟨taken, rfl, written⟩ := proximity_written proximityRead
      exact ⟨taken, rfl, Test.SpanWritten.nameAhead_eq_false (.proximity written) new,
        Test.SpanWritten.run_fieldValue (.proximity written) noStar⟩
    · next absent =>
        rw [Bool.not_eq_true] at absent
        subst absent
        split at decided
        · simp only [run_bind_eq_ok_iff, run_takeOneOf_eq_ok_iff, run_pure_eq_ok_iff] at decided
          obtain ⟨word, _, ⟨token, wordSame, rfl⟩, fuzziness, _, loosened, rfl, rfl⟩ := decided
          obtain ⟨suffix, rfl, suffixWritten, read⟩ := run_fuzziness_swapped swapped loosened
          obtain ⟨noDots, noColon⟩ := suffixWritten.swapped_nextIs_eq_false swapped
          have closed : opened (token :: suffix) = 0 := by
            simp [wordSame.opens (by decide), suffixWritten.opened_eq (by decide) (by decide)]
          have noProximity := run_proximityAhead_swapped swapped (by simp) closed looked
          exact ⟨token :: suffix, rfl, nameAhead_eq_false noColon,
            Test.run_fieldValue_term wordSame ⟨noDots, noColon, noProximity⟩ read⟩
        · simp only [run_bind_eq_ok_iff, run_take_eq_ok_iff, run_pure_eq_ok_iff] at decided
          obtain ⟨text, _, ⟨token, textSame, rfl⟩, slop, _, loosened, rfl, rfl⟩ := decided
          obtain ⟨suffix, rfl, suffixWritten, read⟩ := run_slop_swapped swapped loosened
          obtain ⟨noDots, noColon⟩ := suffixWritten.swapped_nextIs_eq_false swapped
          have closed : opened (token :: suffix) = 0 := by
            simp [textSame.opens (by decide), suffixWritten.opened_eq (by decide) (by decide)]
          have noProximity := run_proximityAhead_swapped swapped (by simp) closed looked
          exact ⟨token :: suffix, rfl, nameAhead_eq_false noColon,
            Test.run_fieldValue_phrase textSame ⟨noDots, noColon, noProximity⟩ read⟩
        · rw [run_look] at decided
          exact absurd decided run_fail_ne_ok

theorem run_test_swapped (writes : ∀ scope, WritesOperands scope (operands scope))
    (endable : ∀ scope, Endable (operands scope)) (swapped : Swapped old new)
    {front : List Token} {body : Body}
    (accepted : (test scope operands).run (front ++ old) = .ok (body, old)) :
    (test scope operands).run (front ++ new) = .ok (body, new) := by
  obtain ⟨taken, split, written⟩ := test_written writes accepted
  obtain rfl := List.append_cancel_right split
  have filled : front ≠ [] := by
    obtain ⟨first, rest, rfl, _⟩ := written.begins
    simp
  simp only [test, run_within_eq_ok_iff, run_bind_eq_ok_iff] at accepted
  obtain ⟨found, _, looked, decided⟩ := accepted
  obtain rfl := proximityAhead_accepted looked
  cases found with
  | true =>
      simp only [if_true, run_bind_eq_ok_iff, run_pure_eq_ok_iff] at decided
      obtain ⟨test, _, proximityRead, rfl, rfl⟩ := decided
      have noStar := swapped.noStar (nextIs_of_run_proximity proximityRead)
      obtain ⟨taken, split, proximityWritten⟩ := proximity_written proximityRead
      obtain rfl := List.append_cancel_right split
      exact proximityWritten.run_test noStar
  | false =>
      have noProximity := run_proximityAhead_swapped swapped filled written.opened_eq looked
      simp only [Bool.false_eq_true, if_false, run_bind_eq_ok_iff] at decided
      obtain ⟨form, _, formRead, decided⟩ := decided
      obtain ⟨rfl, allowed⟩ := testQualifierForm_accepted formRead
      cases form with
      | none =>
          exact run_test_of_plain_swapped (writes scope) (endable scope) swapped noProximity decided
      | some qualified =>
          obtain rfl := allowed (by simp)
          simp only [fieldQualified, run_within_eq_ok_iff, run_bind_eq_ok_iff] at decided
          obtain ⟨field, _, qualifierRead, valueRead⟩ := decided
          obtain ⟨qualifier, split, qualifying⟩ := fieldQualifier_written qualifierRead
          obtain ⟨value, rfl, unnamed, read⟩ :=
            run_fieldValue_swapped (writes .fieldGroup) (endable .fieldGroup) swapped valueRead
          rw [← List.append_assoc] at split
          obtain rfl := List.append_cancel_right split
          rw [List.append_assoc]
          exact (run_test_of_qualified_iff qualifying unnamed).mpr read

end

end SearchQuery
