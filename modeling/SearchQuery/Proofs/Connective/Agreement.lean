import SearchQuery.Proofs.Connective.Loops
set_option autoImplicit false

/-!
# The layered grammar agrees

Level by level, the layered grammar reads what `Grammar` reads and builds the tree that the settings
give it, with the same failures in the same rules.
-/

namespace SearchQuery.Layered

open Reading Grammar

variable {arranged : Scope → Arrangement} {disjunctions : Scope → Reading Node}
  {operandLists : Scope → Reading (List Operand)} {conjoins : Bool}

/-- Readings of disjunctions mirror readings of operands, in both scopes. -/
def MirrorLists (arranged : Scope → Arrangement) (disjunctions : Scope → Reading Node)
    (operandLists : Scope → Reading (List Operand)) : Prop :=
  ∀ scope, (disjunctions scope).Yields
    (fun all => (arranged scope).junction scope (Operand.linkedNodes arranged scope all))
    (operandLists scope)

theorem group_yields {change : List Operand → Node} {image : Reading Node}
    {source : Reading (List Operand)} (scope : Scope) (inner : image.Yields change source) :
    (group scope image).Yields change (Grammar.group scope source) :=
  .within _ (.after _ fun _ => .bind inner fun _ => .after _ fun _ => .pure _ _)

theorem toNode_fieldGroup_ofTest (same : arranged .fieldGroup = arrangement conjoins)
    (field : FieldReference) (test : Test) :
    Body.toNode arranged .query (.fieldGroup field [.ofTest test]) =
      Node.branch .fieldGroup [field.toNode, soleTest conjoins test] := by
  rw [Body.toNode, same, Operand.linkedNodes_cons, junction_cons]
  rfl

theorem sole_yields (same : arranged .fieldGroup = arrangement conjoins) (field : FieldReference)
    (reading : Reading Test) :
    (do
      let test ← reading
      return Node.branch .fieldGroup [field.toNode, soleTest conjoins test] : Reading Node).Yields
      (Body.toNode arranged .query) (do return Body.fieldGroup field [.ofTest (← reading)]) := by
  simp only [← toNode_fieldGroup_ofTest same]
  exact .after _ fun test => .pure _ _

/-- A proximity is preferred in both grammars. -/
theorem sole_or_yields (same : arranged .fieldGroup = arrangement conjoins) (field : FieldReference)
    {image : Reading Node} {source : Reading Body}
    (otherwise : image.Yields (Body.toNode arranged .query) source) :
    (do
      if ← proximityAhead then do
        let test ← proximity
        return Node.branch .fieldGroup [field.toNode, soleTest conjoins test]
      else image : Reading Node).Yields (Body.toNode arranged .query)
      (do
        if ← proximityAhead then return Body.fieldGroup field [.ofTest (← proximity)]
        else source) := by
  refine .after _ fun near => ?_
  cases near with
  | true => exact sole_yields same field proximity
  | false => exact otherwise

theorem test_yields (scope : Scope) (test : Test) :
    (Pure.pure (test.toNode scope) : Reading Node).Yields (Body.toNode arranged scope)
      (Pure.pure (.test test)) := by
  rw [← Body.toNode]
  exact .pure _ _

theorem fieldValue_yields (lists : MirrorLists arranged disjunctions operandLists)
    (same : arranged .fieldGroup = arrangement conjoins) (field : FieldReference) :
    (fieldValue conjoins field disjunctions).Yields (Body.toNode arranged .query)
      (Grammar.fieldValue field operandLists) := by
  refine .after _ fun shape => ?_
  rcases shape with _ | ⟨_ | _ | _ | _⟩
  case none => exact sole_or_yields same field (.look fun _ => .fail _ _ _)
  case some.group =>
    refine .bind (group_yields .fieldGroup (lists .fieldGroup)) fun all => ?_
    rw [← Body.toNode]
    exact .pure _ _
  case some.range => exact sole_yields same field range
  case some.word =>
    exact sole_or_yields same field (.after _ fun word => .after _ fun _ => test_yields _ _)
  case some.phrase =>
    exact sole_or_yields same field (.after _ fun text => .after _ fun _ => test_yields _ _)

theorem plainTest_yields (lists : MirrorLists arranged disjunctions operandLists) (scope : Scope) :
    (plainTest scope disjunctions).Yields (Body.toNode arranged scope)
      (Grammar.plainTest scope operandLists) := by
  have plain (reading : Reading Test) :
      (do return (← reading).toNode scope : Reading Node).Yields (Body.toNode arranged scope)
        (do return .test (← reading)) :=
    .after _ fun test => test_yields scope test
  refine .look fun tokens => ?_
  rcases testShape? scope tokens with _ | ⟨_ | _ | _ | _ | _ | _ | _⟩
  case none => exact .fail _ _ _
  case some.term => exact plain term
  case some.phrase => exact plain phrase
  case some.exact => exact plain (exactTest scope)
  case some.synonym => exact plain (synonym scope)
  case some.range => exact plain range
  case some.group =>
    refine .wrap ?_
    simp only [Body.toNode]
    exact group_yields scope (lists scope)
  case some.template => exact plain template

/-- Inside a field group no field can be named. -/
theorem testQualifierForm_fieldGroup : testQualifierForm .fieldGroup = Pure.pure none := by
  simp only [testQualifierForm, reduceCtorEq, false_and, if_false]
  rfl

theorem body_yields (lists : MirrorLists arranged disjunctions operandLists)
    (same : arranged .fieldGroup = arrangement conjoins) (scope : Scope) :
    (test conjoins scope disjunctions).Yields (Body.toNode arranged scope)
      (Grammar.test scope operandLists) := by
  refine .within _ (.after _ fun near => ?_)
  cases near with
  | true => exact .after _ fun test => test_yields scope test
  | false =>
      cases scope with
      | fieldGroup =>
          rw [testQualifierForm_fieldGroup, if_neg (by simp), if_neg (by simp), pure_bind,
            pure_bind]
          exact plainTest_yields lists .fieldGroup
      -- A field is named, or the test begins without one.
      | query =>
          refine .after _ fun form => ?_
          cases form with
          | some qualified =>
              exact .within _ (.after _ fun field => fieldValue_yields lists same field)
          | none => exact plainTest_yields lists .query

theorem operand_mirrors {settings : Settings} (full : settings.mode.dialect = .full) (levels : Nat)
    (scope : Scope) :
    Mirrors (Arrangement.ofSettings settings) scope (operand settings levels scope)
      (Grammar.operand levels scope) := by
  have same (scope : Scope) := Arrangement.ofSettings_of_full full scope
  induction levels generalizing scope with
  | zero => exact ⟨fun _ => .within _ (.fail _ _ _), operand_written⟩
  | succ levels ih =>
      refine ⟨fun link => ?_, operand_written⟩
      have lists : MirrorLists (Arrangement.ofSettings settings)
          (fun inner => disjunction (settings.conjoins inner) inner (operand settings levels inner))
          (fun inner => operands inner (Grammar.operand levels inner)) :=
        fun inner => (ih inner).disjunction (same inner)
      refine .within _ (.after _ fun sign => .bind (body_yields lists (same .fieldGroup) scope)
        fun body => .after _ fun boost => ?_)
      rw [← Operand.toNode]
      exact .pure _ _

theorem query_yields {settings : Settings} (full : settings.mode.dialect = .full) :
    (query settings).Yields (queryTree settings) Grammar.query := by
  have same := Arrangement.ofSettings_of_full full .query
  have mirrors := operand_mirrors full maxLevels .query
  exact .within _ (.bind (mirrors.disjunction same) fun all => .after _ fun _ => .pure _ _)

/-- The layered grammar builds the same trees and reports the same errors. -/
theorem parseTokens_eq {settings : Settings} (full : settings.mode.dialect = .full)
    (tokens : List Token) :
    parseTokens settings tokens = SearchQuery.parseTokens settings tokens := by
  rw [parseTokens, query_yields full tokens, SearchQuery.parseTokens, parseTokensAs, readTokensAs,
    if_pos rfl, full, readQuery]
  cases Grammar.query.run tokens <;> rfl

end SearchQuery.Layered
