import SearchQuery.Proofs.Completion.Links
import SearchQuery.Proofs.Completion.Parentheses
set_option autoImplicit false

/-!
# Levels to spare

Operands that are read with some number of levels are read with any number that the parentheses
ahead do not use up. The levels of the grammar decide nothing else.
-/

namespace SearchQuery

open Reading Grammar

/-- What one reading yields where parentheses are never so deep, another reading yields too. -/
def Follows {α : Type} (levels : Nat) (first second : Reading α) : Prop :=
  ∀ ⦃tokens rest : List Token⦄ ⦃value : α⦄, Shallow levels tokens →
    first.run tokens = .ok (value, rest) → second.run tokens = .ok (value, rest)

section

variable {levels : Nat} {scope : Scope}

theorem run_group_follows {first second : Reading (List Operand)}
    (follows : Follows levels first second) :
    Follows (levels + 1) (group scope first) (group scope second) := by
  intro tokens rest read shallow accepted
  simp only [group, run_within_eq_ok_iff, run_bind_eq_ok_iff, run_take_eq_ok_iff,
    run_pure_eq_ok_iff] at accepted ⊢
  obtain ⟨opening, inside, ⟨token, opens, rfl⟩, read, behind, innerRead, closed⟩ := accepted
  have innerShallow := shallow.inside opens.kind_eq
  exact ⟨opening, inside, ⟨token, opens, rfl⟩, read, behind, follows innerShallow innerRead, closed⟩

variable {first second : Scope → Reading (List Operand)}

theorem run_fieldValue_follows (follows : ∀ scope, Follows levels (first scope) (second scope))
    (field : FieldReference) :
    Follows (levels + 1) (fieldValue field first) (fieldValue field second) := by
  intro tokens rest body shallow accepted
  simp only [fieldValue, run_bind_eq_ok_iff] at accepted ⊢
  obtain ⟨shape, between, looked, decided⟩ := accepted
  refine ⟨shape, between, looked, ?_⟩
  rw [run_look, run_pure_eq_ok_iff] at looked
  obtain ⟨rfl, rfl⟩ := looked
  split at decided
  · simp only [run_bind_eq_ok_iff, run_pure_eq_ok_iff] at decided ⊢
    obtain ⟨read, behind, groupRead, yielded⟩ := decided
    exact ⟨read, behind, run_group_follows (follows .fieldGroup) shallow groupRead, yielded⟩
  all_goals exact decided

theorem run_plainTest_follows (follows : ∀ scope, Follows levels (first scope) (second scope)) :
    Follows (levels + 1) (plainTest scope first) (plainTest scope second) := by
  intro tokens rest body shallow accepted
  rw [plainTest, run_look] at accepted ⊢
  split at accepted
  case h_6 =>
    simp only [run_bind_eq_ok_iff, run_pure_eq_ok_iff] at accepted ⊢
    obtain ⟨read, behind, groupRead, yielded⟩ := accepted
    exact ⟨read, behind, run_group_follows (follows scope) shallow groupRead, yielded⟩
  all_goals exact accepted

/-- A test reads operands in parentheses only, where one level less is left. -/
theorem run_test_follows (follows : ∀ scope, Follows levels (first scope) (second scope)) :
    Follows (levels + 1) (test scope first) (test scope second) := by
  intro tokens rest body shallow accepted
  simp only [test, run_within_eq_ok_iff, run_bind_eq_ok_iff] at accepted ⊢
  obtain ⟨found, between, looked, decided⟩ := accepted
  refine ⟨found, between, looked, ?_⟩
  obtain rfl := proximityAhead_accepted looked
  cases found with
  | true => exact decided
  | false =>
      simp only [Bool.false_eq_true, if_false, run_bind_eq_ok_iff] at decided ⊢
      obtain ⟨form, between, formRead, decided⟩ := decided
      refine ⟨form, between, formRead, ?_⟩
      obtain ⟨rfl, _⟩ := testQualifierForm_accepted formRead
      cases form with
      | none => exact run_plainTest_follows follows shallow decided
      | some qualified =>
          simp only [fieldQualified, run_within_eq_ok_iff, run_bind_eq_ok_iff] at decided ⊢
          obtain ⟨field, behind, qualifierRead, valueRead⟩ := decided
          obtain ⟨qualifier, rfl, qualifying⟩ := fieldQualifier_written qualifierRead
          exact ⟨field, behind, qualifierRead,
            run_fieldValue_follows follows field (shallow.behind qualifying.opened_eq) valueRead⟩

variable {operand other : Link → Reading Operand}

theorem run_laterOperands_follows (writes : WritesOperand scope operand)
    (follows : ∀ link, Follows levels (operand link) (other link)) (limit : Nat) :
    Follows levels (laterOperands scope operand limit) (laterOperands scope other limit) := by
  induction limit with
  | zero =>
      intro tokens rest read _ accepted
      exact accepted
  | succ limit ih =>
      intro tokens rest read shallow accepted
      cases ahead : linkAhead? scope tokens with
      | none =>
          rw [run_laterOperands_of_unlinked ahead] at accepted ⊢
          exact accepted
      | some link =>
          obtain ⟨operator, _, between, next, later, rfl, linkWritten, linked, nextRead, laterRead,
            rfl⟩ := exists_of_run_laterOperands ahead accepted
          obtain ⟨taken, rfl, _, nextWritten⟩ := writes link nextRead
          have nextShallow := shallow.behind linkWritten.opened_eq
          exact run_laterOperands_of_link ahead linked (nextWritten.nextIn_operandStarts between)
            (follows link nextShallow nextRead)
            (ih (nextShallow.behind nextWritten.opened_eq) laterRead)

theorem run_operands_follows (writes : WritesOperand scope operand)
    (follows : ∀ link, Follows levels (operand link) (other link)) :
    Follows levels (operands scope operand) (operands scope other) := by
  intro tokens rest read shallow accepted
  obtain ⟨front, others, first, later, rfl, rfl, firstWritten, _, firstRead, laterRead, _⟩ :=
    exists_of_run_operands writes accepted
  exact run_operands_of_opening (firstWritten.nextIn_operandStarts _)
    (follows .opening shallow firstRead)
    (run_laterOperands_follows writes follows _ (shallow.behind firstWritten.opened_eq) laterRead)

/-- An operand is read with as many levels as its parentheses use up, if it is read at all. -/
theorem run_operand_follows (spent : Nat) (link : Link) :
    Follows levels (Grammar.operand spent scope link) (Grammar.operand levels scope link) := by
  induction levels generalizing spent scope link with
  | zero =>
      intro tokens _ _ shallow
      exact absurd shallow (not_shallow_zero tokens)
  | succ levels ih =>
      intro tokens rest read shallow accepted
      cases spent with
      | zero =>
          rw [Grammar.operand, run_within_eq_ok_iff] at accepted
          exact absurd accepted run_fail_ne_ok
      | succ spent =>
          simp only [Grammar.operand, run_within_eq_ok_iff, run_bind_eq_ok_iff] at accepted ⊢
          obtain ⟨sign, behind, signRead, body, between, bodyRead, boosted⟩ := accepted
          obtain ⟨front, rfl, signWritten⟩ := sign_written signRead
          have inner (scope : Scope) : Follows levels
              (operands scope (Grammar.operand spent scope))
              (operands scope (Grammar.operand levels scope)) :=
            run_operands_follows operand_written fun link => ih spent link
          exact ⟨sign, behind, signRead, body, between,
            run_test_follows inner (shallow.behind signWritten.opened_eq) bodyRead, boosted⟩

end

end SearchQuery
