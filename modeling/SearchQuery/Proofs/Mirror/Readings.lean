import SearchQuery.Proofs.Accepted
set_option autoImplicit false

/-!
# The two scopes of the grammar

Where no token names a field, the grammar of the query and that of the inside of a field group read
the same operands from the same tokens. What the query has besides are fields and templates, and none
of them is written without a colon or a percent sign. Failures differ, since diagnostics name the
rules of a scope and the kinds that it would have accepted.
-/

namespace SearchQuery

/-- The kinds that name fields and are of no use inside a field group. -/
def TokenKind.fieldMarks : List TokenKind :=
  [colon, atSign, uri, percent]

/-- No token names a field. -/
def FieldFree (tokens : List Token) : Prop :=
  ∀ token ∈ tokens, token.kind ∉ TokenKind.fieldMarks

theorem FieldFree.of_suffix {tokens rest : List Token} (fieldFree : FieldFree tokens)
    (suffix : rest <:+ tokens) : FieldFree rest :=
  fun token member => fieldFree token (suffix.subset member)

namespace Reading

variable {α β : Type}

/-- Two readings have the same successes where no token names a field, and leave no token that names
one. -/
def Agrees (first second : Reading α) : Prop :=
  ∀ ⦃tokens : List Token⦄, FieldFree tokens → ∀ (value : α) (rest : List Token),
    (first.run tokens = .ok (value, rest) ↔ second.run tokens = .ok (value, rest)) ∧
      (first.run tokens = .ok (value, rest) → FieldFree rest)

namespace Agrees

theorem pure (value : α) : Agrees (Pure.pure value) (Pure.pure value) := by
  intro tokens fieldFree result rest
  refine ⟨Iff.rfl, fun accepted => ?_⟩
  obtain ⟨_, rfl⟩ := run_pure_eq_ok_iff.mp accepted
  exact fieldFree

theorem fail (firstCause secondCause : ParseFault) (firstExpected secondExpected : List TokenKind) :
    Agrees (Reading.fail firstCause firstExpected : Reading α)
      (Reading.fail secondCause secondExpected) := by
  intro tokens _ value rest
  simp

theorem of_writes {reading : Reading α} {written : α → List Token → Prop}
    (writes : reading.Writes written) : Agrees reading reading := by
  intro tokens fieldFree value rest
  refine ⟨Iff.rfl, fun accepted => ?_⟩
  obtain ⟨taken, rfl, _⟩ := writes accepted
  exact fieldFree.of_suffix (List.suffix_append taken rest)

theorem look {first second : List Token → Reading α}
    (each : ∀ tokens, FieldFree tokens → Agrees (first tokens) (second tokens)) :
    Agrees (Reading.look first) (Reading.look second) :=
  fun tokens fieldFree => each tokens fieldFree fieldFree

theorem within {first second : Reading α} (firstRule secondRule : Rule)
    (inner : Agrees first second) :
    Agrees (Reading.within firstRule first) (Reading.within secondRule second) := by
  intro tokens fieldFree value rest
  rw [run_within_eq_ok_iff, run_within_eq_ok_iff]
  exact inner fieldFree value rest

theorem bind {first second : Reading α} {firstNext secondNext : α → Reading β}
    (agrees : Agrees first second) (next : ∀ value, Agrees (firstNext value) (secondNext value)) :
    Agrees (first >>= firstNext) (second >>= secondNext) := by
  intro tokens fieldFree result rest
  simp only [run_bind_eq_ok_iff]
  constructor
  · constructor
    · rintro ⟨value, between, read, nextRead⟩
      obtain ⟨same, left⟩ := agrees fieldFree value between
      exact ⟨value, between, same.mp read, (next value (left read) _ _).1.mp nextRead⟩
    · rintro ⟨value, between, read, nextRead⟩
      obtain ⟨same, left⟩ := agrees fieldFree value between
      have firstRead := same.mpr read
      exact ⟨value, between, firstRead, (next value (left firstRead) _ _).1.mpr nextRead⟩
  · rintro ⟨value, between, read, nextRead⟩
    exact (next value ((agrees fieldFree _ _).2 read) _ _).2 nextRead

/-- What both readings find without taking a token is known to what follows. -/
theorem bind_of_found {first second : Reading α} {firstNext secondNext : α → Reading β} {found : α}
    (firstFinds : ∀ tokens, FieldFree tokens → first.run tokens = .ok (found, tokens))
    (secondFinds : ∀ tokens, FieldFree tokens → second.run tokens = .ok (found, tokens))
    (next : Agrees (firstNext found) (secondNext found)) :
    Agrees (first >>= firstNext) (second >>= secondNext) := by
  intro tokens fieldFree result rest
  rw [run_bind, run_bind, firstFinds tokens fieldFree, secondFinds tokens fieldFree]
  exact next fieldFree result rest

theorem after {reading : Reading α} {written : α → List Token → Prop} {first second : α → Reading β}
    (writes : reading.Writes written) (next : ∀ value, Agrees (first value) (second value)) :
    Agrees (reading >>= first) (reading >>= second) :=
  bind (of_writes writes) next

end Agrees

end Reading

namespace Grammar

open Reading

/-!
## What is ahead
-/

section

variable {tokens : List Token}

theorem mem_testStarts_iff {kind : TokenKind} (unmarked : kind ∉ TokenKind.fieldMarks)
    (first second : Scope) : kind ∈ testStarts first ↔ kind ∈ testStarts second := by
  revert unmarked
  cases kind <;> cases first <;> cases second <;> decide

theorem mem_operandStarts_iff {kind : TokenKind} (unmarked : kind ∉ TokenKind.fieldMarks)
    (first second : Scope) : kind ∈ operandStarts first ↔ kind ∈ operandStarts second := by
  simp only [operandStarts, List.mem_append, mem_testStarts_iff unmarked first second]

theorem nextIn_operandStarts_eq (fieldFree : FieldFree tokens) (first second : Scope) :
    nextIn (operandStarts first) tokens = nextIn (operandStarts second) tokens := by
  cases tokens with
  | nil => rfl
  | cons token rest =>
      obtain ⟨unmarked, _⟩ := List.forall_mem_cons.mp fieldFree
      simp [nextIn, mem_operandStarts_iff unmarked first second]

theorem linkAhead?_eq (fieldFree : FieldFree tokens) (first second : Scope) :
    linkAhead? first tokens = linkAhead? second tokens := by
  cases tokens with
  | nil => rfl
  | cons token rest =>
      obtain ⟨unmarked, later⟩ := List.forall_mem_cons.mp fieldFree
      simp only [linkAhead?, nextIn_operandStarts_eq later first second,
        mem_operandStarts_iff unmarked first second]

theorem testShape?_eq (fieldFree : FieldFree tokens) (first second : Scope) :
    testShape? first tokens = testShape? second tokens := by
  cases tokens with
  | nil => rfl
  | cons token rest =>
      obtain ⟨unmarked, _⟩ := List.forall_mem_cons.mp fieldFree
      have other : token.kind ≠ .percent := by
        intro kind
        exact unmarked (by simp [kind, TokenKind.fieldMarks])
      simp only [testShape?]
      cases kind : token.kind <;> first | rfl | exact absurd kind other

/-- No field is named without a colon. -/
theorem isOk_fieldQualifier_eq_false (fieldFree : FieldFree tokens) (qualified : Bool) :
    ((fieldQualifier qualified).run tokens).isOk = false := by
  cases read : (fieldQualifier qualified).run tokens with
  | error failure => rfl
  | ok result =>
      obtain ⟨taken, rfl, qualifying⟩ := fieldQualifier_written read
      cases qualifying with
      | @mk _ colon _ kind =>
          have unmarked := fieldFree colon (by simp)
          simp [kind, TokenKind.fieldMarks] at unmarked

theorem run_fieldQualifierForm_eq_none (fieldFree : FieldFree tokens) :
    fieldQualifierForm.run tokens = .ok (none, tokens) := by
  have absent := isOk_fieldQualifier_eq_false fieldFree
  simp [fieldQualifierForm, run_bind, run_wouldSucceed, absent]

theorem run_testQualifierForm_eq_none (fieldFree : FieldFree tokens) (scope : Scope) :
    (testQualifierForm scope).run tokens = .ok (none, tokens) := by
  rw [testQualifierForm, run_look]
  split
  · exact run_fieldQualifierForm_eq_none fieldFree
  · rfl

theorem run_optionalFieldQualifier_eq_none (fieldFree : FieldFree tokens) (scope : Scope) :
    (optionalFieldQualifier scope).run tokens = .ok (none, tokens) := by
  cases scope with
  | fieldGroup => rfl
  | query => rw [optionalFieldQualifier, run_bind, run_fieldQualifierForm_eq_none fieldFree]; rfl

end

/-!
## Tests
-/

theorem exactTest_agrees (first second : Scope) :
    (exactTest first).Agrees (exactTest second) := by
  refine .within _ _ (.after take_written fun _ => .bind_of_found
    (fun _ fieldFree => run_optionalFieldQualifier_eq_none fieldFree first)
    (fun _ fieldFree => run_optionalFieldQualifier_eq_none fieldFree second) ?_)
  refine .look fun tokens _ => ?_
  split
  · exact .after take_written fun _ => .after slop_written fun _ => .pure _
  · exact .after takeOneOf_written fun _ => .after fuzziness_written fun _ => .pure _

theorem synonym_agrees (first second : Scope) : (synonym first).Agrees (synonym second) :=
  .within _ _ (.after take_written fun _ => .bind_of_found
    (fun _ fieldFree => run_optionalFieldQualifier_eq_none fieldFree first)
    (fun _ fieldFree => run_optionalFieldQualifier_eq_none fieldFree second)
    (.after takeOneOf_written fun _ => .after fuzziness_written fun _ => .pure _))

section

variable {operands : Scope → Reading (List Operand)} {first second : Scope}

theorem group_agrees {firstInner secondInner : Reading (List Operand)}
    (inner : firstInner.Agrees secondInner) :
    (group first firstInner).Agrees (group second secondInner) :=
  .within _ _ (.after take_written fun _ => .bind inner fun _ =>
    .after take_written fun _ => .pure _)

theorem plainTest_agrees (inner : (operands first).Agrees (operands second)) :
    (plainTest first operands).Agrees (plainTest second operands) := by
  refine .look fun tokens fieldFree => ?_
  rw [testShape?_eq fieldFree first second]
  rcases testShape? second tokens with _ | ⟨_ | _ | _ | _ | _ | _ | _⟩
  case none => exact .fail _ _ _ _
  case some.term =>
    exact .after (term_written : term.Writes (Test.Written first)) fun _ => .pure _
  case some.phrase =>
    exact .after (phrase_written : phrase.Writes (Test.Written first)) fun _ => .pure _
  case some.exact => exact .bind (exactTest_agrees first second) fun _ => .pure _
  case some.synonym => exact .bind (synonym_agrees first second) fun _ => .pure _
  case some.range => exact .after range_written fun _ => .pure _
  case some.group => exact .bind (group_agrees inner) fun _ => .pure _
  case some.template => exact .after template_written fun _ => .pure _

theorem proximityAhead_agrees : proximityAhead.Agrees proximityAhead := by
  intro tokens fieldFree found rest
  refine ⟨Iff.rfl, fun accepted => ?_⟩
  obtain rfl := proximityAhead_accepted accepted
  exact fieldFree

theorem test_agrees (inner : (operands first).Agrees (operands second)) :
    (test first operands).Agrees (test second operands) := by
  refine .within _ _ (.bind proximityAhead_agrees fun near => ?_)
  cases near with
  | true => exact .after proximity_written fun _ => .pure _
  | false =>
      exact .bind_of_found (fun _ fieldFree => run_testQualifierForm_eq_none fieldFree first)
        (fun _ fieldFree => run_testQualifierForm_eq_none fieldFree second)
        (plainTest_agrees inner)

end

/-!
## Operands
-/

section

variable {first second : Scope} {firstOperand secondOperand : Link → Reading Operand}

theorem advance_written : advance.Writes fun _ taken => ∃ token, taken = [token] := by
  intro tokens rest _ accepted
  obtain ⟨token, rfl⟩ := run_advance_eq_ok_iff.mp accepted
  exact ⟨[token], rfl, token, rfl⟩

theorem takeLink_agrees (link : Link) : (takeLink link).Agrees (takeLink link) := by
  cases link with
  | opening | adjacent => exact .pure _
  | and | or => exact .of_writes advance_written

theorem requireOperand_agrees (first second : Scope) :
    (requireOperand (operandStarts first)).Agrees (requireOperand (operandStarts second)) := by
  refine .look fun tokens fieldFree => ?_
  rw [nextIn_operandStarts_eq fieldFree first second]
  split
  · exact .pure _
  · exact .fail _ _ _ _

theorem laterOperands_agrees (each : ∀ link, (firstOperand link).Agrees (secondOperand link))
    (limit : Nat) :
    (laterOperands first firstOperand limit).Agrees (laterOperands second secondOperand limit) := by
  induction limit with
  | zero => exact .pure _
  | succ limit ih =>
      refine .look fun tokens fieldFree => ?_
      rw [linkAhead?_eq fieldFree first second]
      cases linkAhead? second tokens with
      | none => exact .pure _
      | some link =>
          refine .bind (takeLink_agrees link) fun _ => .bind (.within _ _ ?_) fun _ =>
            .bind ih fun _ => .pure _
          split
          · exact .bind (requireOperand_agrees first second) fun _ => each link
          · exact each link

theorem operands_agrees (each : ∀ link, (firstOperand link).Agrees (secondOperand link)) :
    (operands first firstOperand).Agrees (operands second secondOperand) := by
  refine .within _ _ (.bind (.within _ _ ?_) fun _ => .bind (.look fun tokens _ => ?_)
    fun _ => .pure _)
  · exact .bind (requireOperand_agrees first second) fun _ => each .opening
  · exact laterOperands_agrees each tokens.length

end

/-- Operands are read alike in both scopes, at whatever depth. -/
theorem operand_agrees (levels : Nat) (first second : Scope) (link : Link) :
    (operand levels first link).Agrees (operand levels second link) := by
  induction levels generalizing link with
  | zero => exact .within _ _ (.fail _ _ _ _)
  | succ levels ih =>
      exact .within _ _ (.after sign_written fun _ => .bind (test_agrees (operands_agrees ih))
        fun _ => .after boost_written fun _ => .pure _)

end Grammar

end SearchQuery
