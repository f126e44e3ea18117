import SearchQuery.Proofs.Completion.Tests
set_option autoImplicit false

/-!
# What an operand applies to can be completed

A group is completed as the operands in it are, and closed behind them. A test is cut off in its
field, in what follows the field, or in a form of its own.
-/

namespace SearchQuery

open Reading Grammar

/-- What is assumed of the operands in parentheses: wherever they may end they do, and where they
stop they can be completed, as long as parentheses are no deeper than there are levels. -/
structure Completable (levels : Nat) (scope : Scope) (operands : Reading (List Operand)) : Prop where
  endable : Endable operands
  completes : ∀ ⦃tokens ahead : List Token⦄, Shallow levels tokens → Stops operands tokens ahead →
    CompletedAt operands [.anyName] tokens ahead

section

variable {levels : Nat} {scope : Scope} {operands : Reading (List Operand)}

theorem exists_of_stops_group (completable : Completable levels scope operands)
    (writes : WritesOperands scope operands) {opening : Token} {inside ahead : List Token}
    (opens : opening.kind = .lparen) (shallow : Shallow (levels + 1) (opening :: inside))
    (stops : Stops (group scope operands) (opening :: inside) ahead) :
    ∃ front core closers, inside = front ++ ahead ∧
      (∀ before, Cut (before ++ opening :: front) ahead core) ∧ Closing closers ∧
      ∀ after, Closing after → ∃ read,
        (group scope operands).run (opening :: (front ++ (core ++ (closers ++ after)))) =
          .ok (read, after) := by
  have closed {tokens after : List Token} {read : List Operand}
      (accepted : operands.run tokens = .ok (read, .ofKind .rparen :: after)) :
      (group scope operands).run (opening :: tokens) = .ok (read, after) := by
    simp only [group, run_within_eq_ok_iff, run_bind_eq_ok_iff, run_take_eq_ok_iff,
      run_pure_eq_ok_iff]
    exact ⟨_, _, ⟨_, Token.leaf_isOf _ opens, rfl⟩, read, _, accepted, _, _,
      ⟨_, Token.leaf_isOf _ (Token.kind_ofKind .rparen), rfl⟩, rfl, rfl⟩
  simp only [group, stops_within_iff, stops_bind_iff, stops_take_iff, run_take_eq_ok_iff,
    not_stops_pure, and_false, exists_false, or_false] at stops
  obtain ⟨rfl, missing⟩ | ⟨_, _, ⟨_, _, split⟩, stops | ⟨read, _, accepted, rfl, _⟩⟩ := stops
  · simp [nextIs, opens] at missing
  · cases split
    obtain ⟨front, core, closers, rfl, carried, closing, completed⟩ :=
      completable.completes (shallow.inside opens) stops
    refine ⟨front, core, closers ++ [.ofKind .rparen], rfl, carried.cut_behind (by simp [opens]),
      closing.append closing_ofKind, fun after ends => ?_⟩
    obtain ⟨read, accepted⟩ := completed _ (closing_ofKind.append ends)
    refine ⟨read, closed ?_⟩
    simpa using accepted
  · cases split
    have noStar := completable.endable.noStar accepted
    obtain ⟨taken, rfl, _⟩ := writes accepted
    refine ⟨taken, [], [.ofKind .rparen], rfl, fun before => Cut.of_noStar noStar _,
      closing_ofKind, fun after _ => ⟨read, closed ?_⟩⟩
    exact completable.endable.again (.closed (Token.kind_ofKind .rparen)) accepted

end

theorem FieldReference.Qualifying.begunAt {field : FieldReference} {qualifier : List Token}
    (qualifying : field.Qualifying qualifier) (ahead : List Token) :
    Test.BegunAt .query (qualifier ++ ahead) ahead := by
  have written := QualifierWritten.present qualifying
  refine ⟨qualifier, [.anyName], [], _, rfl, qualifying.tokens_ne_nil, ?_, closing_nil,
    .term written (Token.anyName_isOf (by decide)) .absent⟩
  refine cut_of_fields qualifying.tokens_ne_nil ?_ ?_ (.inl rfl)
  · intro token member
    exact List.mem_append_right _ (written.kind_mem token member)
  · intro token single
    obtain ⟨_, _, _, split, _⟩ := qualifying.exists_cons
    rw [split] at single
    simp at single

theorem Grammar.not_stops_of_proximityAhead {change : Test → Body} {tokens rest ahead : List Token}
    (found : proximityAhead.run tokens = .ok (true, rest)) :
    ¬ Stops (do return change (← proximity)) tokens ahead := by
  rw [run_proximityAhead_eq, Except.ok.injEq, Prod.mk.injEq] at found
  rw [stops_bind_pure_iff]
  rintro ⟨failure, rejected, _⟩
  rw [rejected] at found
  cases found.1

theorem Grammar.not_stops_testQualifierForm {scope : Scope} {tokens ahead : List Token} :
    ¬ Stops (testQualifierForm scope) tokens ahead := by
  rw [testQualifierForm, stops_look_iff]
  split
  · exact not_stops_of_ok (run_fieldQualifierForm tokens)
  · exact not_stops_pure _

theorem Grammar.fieldQualifierForm_of_test {scope : Scope} {tokens rest : List Token}
    {qualified : Bool} (found : (testQualifierForm scope).run tokens = .ok (some qualified, rest)) :
    fieldQualifierForm.run tokens = .ok (some qualified, rest) := by
  rw [testQualifierForm, run_look] at found
  split at found
  · exact found
  · cases found

section

variable {levels : Nat} {operands : Scope → Reading (List Operand)}

theorem completedAt_of_stops_fieldValue
    (completable : ∀ scope, Completable levels scope (operands scope))
    (writes : ∀ scope, WritesOperands scope (operands scope)) {field : FieldReference}
    {qualifier tokens ahead : List Token} (qualifying : field.Qualifying qualifier)
    (shallow : Shallow (levels + 1) tokens) (stops : Stops (fieldValue field operands) tokens ahead) :
    CompletedAt (test .query operands) [.anyName] (qualifier ++ tokens) ahead := by
  have filled := qualifying.tokens_ne_nil
  simp only [fieldValue, stops_bind_iff, stops_look_iff, not_stops_pure, false_or, run_look,
    run_pure_eq_ok_iff] at stops
  obtain ⟨shape, _, ⟨shaped, rfl⟩, stops⟩ := stops
  split at stops
  · have opened : nextIs .lparen tokens = true := by
      cases tokens with
      | nil => cases shaped
      | cons token rest =>
          simp only [valueShape?] at shaped
          grind [nextIs]
    obtain ⟨opening, inside, opens, rfl⟩ := nextIs_eq_true_iff.mp opened
    rw [stops_bind_pure_iff] at stops
    obtain ⟨front, core, closers, rfl, cut, closing, completed⟩ :=
      exists_of_stops_group (completable .fieldGroup) (writes .fieldGroup) opens shallow stops
    refine ⟨qualifier ++ opening :: front, core, closers, by simp, .cut (by simp) (cut _), closing,
      fun after ends => ?_⟩
    obtain ⟨read, accepted⟩ := completed after ends
    rw [List.append_assoc]
    exact ⟨_, (run_test_of_qualified_iff qualifying (nameAhead_of_group opens)).mpr
      ((run_fieldValue_of_group_iff opens).mpr ⟨read, accepted, rfl⟩)⟩
  · rw [stops_bind_pure_iff] at stops
    obtain ⟨front, core, test, rfl, some, cut, written⟩ :=
      exists_of_stops_range (rangeAhead_of_valueShape? shaped) stops
    refine ⟨qualifier ++ front, core, [], by simp, .cut (by simp [filled]) (cut.append_left some _),
      closing_nil, fun after _ => ?_⟩
    rw [List.append_assoc, ← List.append_assoc front, List.nil_append]
    have unnamed := Test.SpanWritten.nameAhead_eq_false (.range written) after
    exact ⟨_, (run_test_of_qualified_iff qualifying unnamed).mpr written.run_fieldValue⟩
  · rw [stops_bind_iff] at stops
    obtain stops | ⟨found, _, looked, stops⟩ := stops
    · exact absurd stops (not_stops_of_ok (run_proximityAhead_eq tokens))
    obtain rfl := proximityAhead_accepted looked
    cases found with
    | true => exact absurd stops (not_stops_of_proximityAhead looked)
    | false =>
        rw [if_neg (by simp)] at stops
        apply Test.BegunAt.completedAt
        split at stops
        · simp only [stops_bind_iff, stops_takeOneOf_iff, run_takeOneOf_eq_ok_iff, not_stops_pure,
            and_false, exists_false, or_false] at stops
          obtain ⟨rfl, _⟩ | ⟨word, _, ⟨token, same, rfl⟩, stops⟩ := stops
          · exact qualifying.begunAt _
          · exact Test.begunAt_of_stops_fuzziness (.present qualifying) same stops
        · simp only [stops_bind_iff, stops_take_iff, run_take_eq_ok_iff, not_stops_pure, and_false,
            exists_false, or_false] at stops
          obtain ⟨rfl, _⟩ | ⟨text, _, ⟨token, same, rfl⟩, stops⟩ := stops
          · exact qualifying.begunAt _
          · exact Test.begunAt_of_stops_slop (.present qualifying) same stops
        · rw [stops_look_iff, stops_fail_iff] at stops
          rw [stops]
          exact qualifying.begunAt _

theorem completedAt_of_stops_group {scope : Scope}
    (completable : Completable levels scope (operands scope))
    (writes : WritesOperands scope (operands scope)) {tokens ahead : List Token}
    (opened : nextIs .lparen tokens = true) (shallow : Shallow (levels + 1) tokens)
    (stops : Stops (group scope (operands scope)) tokens ahead) :
    CompletedAt (test scope operands) [.anyName] tokens ahead := by
  obtain ⟨opening, inside, opens, rfl⟩ := nextIs_eq_true_iff.mp opened
  obtain ⟨front, core, closers, rfl, cut, closing, completed⟩ :=
    exists_of_stops_group completable writes opens shallow stops
  refine ⟨opening :: front, core, closers, rfl, .cut (by simp) (cut []), closing,
    fun after ends => ?_⟩
  obtain ⟨read, accepted⟩ := completed after ends
  exact ⟨_, (run_test_of_group_iff opens).mpr ⟨read, accepted, rfl⟩⟩

theorem completedAt_of_stops_plainTest {scope : Scope}
    (completable : Completable levels scope (operands scope))
    (writes : WritesOperands scope (operands scope)) {tokens ahead : List Token}
    (shallow : Shallow (levels + 1) tokens) (stops : Stops (plainTest scope operands) tokens ahead) :
    CompletedAt (test scope operands) [.anyName] tokens ahead := by
  rw [plainTest, stops_look_iff] at stops
  cases shaped : testShape? scope tokens with
  | none =>
      rw [shaped] at stops
      obtain rfl := stops_fail_iff.mp stops
      refine Test.completedAt_anew ?_ operands
      cases tokens with
      | nil => rfl
      | cons token rest =>
          simp only [testShape?] at shaped
          grind [nextIs]
  | some shape =>
      rw [shaped] at stops
      cases shape with
      | term =>
          simp only [term, stops_bind_iff, stops_within_iff, stops_takeOneOf_iff,
            run_takeOneOf_eq_ok_iff, not_stops_pure, and_false, exists_false, or_false] at stops
          obtain ⟨rfl, missing⟩ | ⟨word, _, ⟨token, same, rfl⟩, stops⟩ := stops
          · exact Test.completedAt_anew (nextIs_eq_false_of_nextIn missing (by decide)) operands
          · exact (Test.begunAt_of_stops_fuzziness .absent same stops).completedAt operands
      | phrase =>
          have next : nextIs .phrase tokens = true := nextIs_of_testShape? shaped (by decide)
          simp only [phrase, stops_bind_iff, stops_within_iff, stops_take_iff,
            run_take_eq_ok_iff, not_stops_pure, and_false, exists_false, or_false] at stops
          obtain ⟨rfl, missing⟩ | ⟨text, _, ⟨token, same, rfl⟩, stops⟩ := stops
          · rw [next] at missing
            cases missing
          · exact (Test.begunAt_of_stops_slop .absent same stops).completedAt operands
      | exact =>
          rw [stops_bind_pure_iff] at stops
          exact (Test.begunAt_of_stops_exactTest (nextIs_of_testShape? shaped (by decide))
            stops).completedAt operands
      | synonym =>
          rw [stops_bind_pure_iff] at stops
          exact (Test.begunAt_of_stops_synonym (nextIs_of_testShape? shaped (by decide))
            stops).completedAt operands
      | range =>
          rw [stops_bind_pure_iff] at stops
          obtain ⟨front, core, test, rfl, some, cut, written⟩ :=
            exists_of_stops_range (rangeAhead_of_testShape? shaped) stops
          apply Test.BegunAt.completedAt
          exact ⟨front, core, [], test, rfl, some, cut, closing_nil, .span (.range (by simpa))⟩
      | group =>
          rw [stops_bind_pure_iff] at stops
          exact completedAt_of_stops_group completable writes
            (nextIs_of_testShape? shaped (by decide)) shallow stops
      | template =>
          obtain rfl := scope_of_testShape_template shaped
          rw [stops_bind_pure_iff] at stops
          exact (Test.begunAt_of_stops_template (nextIs_of_testShape? shaped (by decide))
            stops).completedAt operands

/-- A test that stops can be completed, however it has begun. -/
theorem completedAt_of_stops_test
    (completable : ∀ scope, Completable levels scope (operands scope))
    (writes : ∀ scope, WritesOperands scope (operands scope)) {scope : Scope}
    {tokens ahead : List Token} (shallow : Shallow (levels + 1) tokens)
    (stops : Stops (test scope operands) tokens ahead) :
    CompletedAt (test scope operands) [.anyName] tokens ahead := by
  simp only [test, stops_within_iff, stops_bind_iff] at stops
  obtain stops | ⟨found, _, looked, stops⟩ := stops
  · exact absurd stops (not_stops_of_ok (run_proximityAhead_eq tokens))
  obtain rfl := proximityAhead_accepted looked
  cases found with
  | true => exact absurd stops (not_stops_of_proximityAhead looked)
  | false =>
      simp only [Bool.false_eq_true, if_false, stops_bind_iff] at stops
      obtain stops | ⟨form, _, formRead, stops⟩ := stops
      · exact absurd stops not_stops_testQualifierForm
      obtain ⟨rfl, allowed⟩ := testQualifierForm_accepted formRead
      cases form with
      | none => exact completedAt_of_stops_plainTest (completable scope) (writes scope) shallow stops
      | some qualified =>
          obtain rfl := allowed (by simp)
          simp only [fieldQualified, stops_within_iff, stops_bind_iff] at stops
          obtain stops | ⟨field, _, qualifierRead, stops⟩ := stops
          · exact absurd stops (not_stops_fieldQualifier (fieldQualifierForm_of_test formRead))
          · obtain ⟨qualifier, rfl, qualifying⟩ := fieldQualifier_written qualifierRead
            exact completedAt_of_stops_fieldValue completable writes qualifying
              (shallow.behind qualifying.opened_eq) stops

end

end SearchQuery
