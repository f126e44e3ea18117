import SearchQuery.Proofs.Accepted
import SearchQuery.Proofs.Restated
import SearchQuery.Proofs.Written.Operands
set_option autoImplicit false

/-!
# The grammar reads restated tokens

Every reading of the full grammar carries over to tokens that restate those it accepts. What is
tried carries over in both directions, so trials come out the same. Behind a link an operand has
been read, and so a keyword links what its symbol links.
-/

namespace SearchQuery

open Reading

namespace Grammar

/-!
## What looks at no operator
-/

section

variable {replaced : List TokenKind} {related : List Token → List Token → Prop}
  (hereditary : Hereditary replaced related)

include hereditary

theorem skip_carries {kind : TokenKind} (ordinary : kind ∉ TokenKind.operators) :
    Carries related (skip kind) := by
  unfold skip
  refine .look fun left right same => ?_
  rw [(hereditary.akin same).nextIs_eq ordinary]
  split
  · exact .advance hereditary
  · exact .pure ()

theorem fieldReference_carries (qualified : Bool) :
    Carries related (fieldReference qualified) := by
  unfold fieldReference
  refine .within _ (.bind (skip_carries hereditary (by decide)) fun _ =>
    .look fun left right same => ?_)
  rw [(hereditary.akin same).nextIs_eq (by decide)]
  split
  · exact .bind (.take hereditary (by decide)) fun _ =>
      .bind (.take hereditary (by decide)) fun _ => .pure _
  · split
    · exact .bind (.take hereditary (by decide)) fun _ =>
        .bind (.take hereditary (by decide)) fun _ =>
          .bind (.take hereditary (by decide)) fun _ => .pure _
    · exact .bind (.take hereditary (by decide)) fun _ => .pure _

theorem fieldQualifier_carries (qualified : Bool) : Carries related (fieldQualifier qualified) :=
  .bind (fieldReference_carries hereditary qualified) fun _ =>
    .bind (.take hereditary (by decide)) fun _ => .pure _

theorem distance_carries : Carries related distance := by
  unfold distance
  refine .look fun left right same => ?_
  rw [(hereditary.akin same).nextIs_eq (by decide)]
  split
  · refine .bind (.advance hereditary) fun _ => .bind (.look fun left right same => ?_) fun _ =>
      .bind (.take hereditary (by decide)) fun _ => .pure _
    rw [(hereditary.akin same).nextIs_eq (by decide)]
    split
    · exact .bind (.take hereditary (by decide)) fun _ => .pure _
    · exact .pure _
  · exact .pure _

theorem takeLink_carries (link : Link) : Carries related (takeLink link) := by
  cases link with
  | and | or => exact .advance hereditary
  | opening | adjacent => exact .pure ()

variable (words : ∀ kind ∈ TokenKind.words, kind ∉ replaced)

include words

theorem proximitySteps_carries (limit : Nat) : Carries related (proximitySteps limit) := by
  induction limit with
  | zero => exact .pure []
  | succ limit ih =>
      unfold proximitySteps
      refine .bind (.take hereditary (by decide)) fun _ => .bind (distance_carries hereditary)
        fun _ => .bind (.takeOneOf hereditary words) fun _ => .look fun left right same => ?_
      rw [(hereditary.akin same).nextIs_eq (by decide)]
      split
      · exact .bind ih fun _ => .pure _
      · exact .pure _

theorem proximity_carries : Carries related proximity := by
  unfold proximity
  refine .within _ (.bind (.takeOneOf hereditary words) fun _ =>
    .bind (.look fun left right same => ?_) fun _ => .pure _)
  rw [(hereditary.akin same).length_eq]
  exact proximitySteps_carries hereditary words _

end

/-!
## What is tried
-/

theorem isOk_fieldReference_eq (qualified : Bool) {left right : List Token}
    (restated : Restated left right) : ((fieldReference qualified).run left).isOk =
      ((fieldReference qualified).run right).isOk :=
  CarriesTo.isOk_eq (fieldReference_carries Akin.hereditary qualified) restated.akin
    restated.akin.symm

theorem isOk_fieldQualifier_eq (qualified : Bool) {left right : List Token}
    (restated : Restated left right) : ((fieldQualifier qualified).run left).isOk =
      ((fieldQualifier qualified).run right).isOk :=
  CarriesTo.isOk_eq (fieldQualifier_carries Akin.hereditary qualified) restated.akin
    restated.akin.symm

theorem isOk_proximity_eq {left right : List Token} (restated : Restated left right) :
    (proximity.run left).isOk = (proximity.run right).isOk := by
  cases restated.unambiguous with
  | inl alike =>
      exact CarriesTo.isOk_eq (proximity_carries Alike.hereditary (by simp)) alike alike.symm
  | inr plain =>
      have leftStarless : ∀ token ∈ left, token.kind ≠ .star := by
        intro token member kind
        have other := plain token member
        simp [kind] at other
      rw [isOk_run_proximity_of_starless leftStarless,
        isOk_run_proximity_of_starless (restated.akin.starless leftStarless)]

theorem anyFieldReference_carries : Carries Restated anyFieldReference :=
  .bind (.wouldSucceed fun _ _ restated => isOk_fieldReference_eq true restated) fun _ =>
    fieldReference_carries Restated.hereditary _

theorem fieldQualifierForm_carries : Carries Restated fieldQualifierForm := by
  unfold fieldQualifierForm
  refine .bind (.wouldSucceed fun _ _ restated => isOk_fieldQualifier_eq true restated)
    fun qualified => ?_
  split
  · exact .pure _
  · refine .bind (.wouldSucceed fun _ _ restated => isOk_fieldQualifier_eq false restated)
      fun plain => ?_
    split
    · exact .pure _
    · exact .pure _

theorem optionalFieldQualifier_carries (scope : Scope) :
    Carries Restated (optionalFieldQualifier scope) := by
  cases scope with
  | fieldGroup => exact .pure none
  | query =>
      refine .bind fieldQualifierForm_carries fun form => ?_
      cases form with
      | some qualified =>
          exact .bind (fieldQualifier_carries Restated.hereditary qualified) fun _ => .pure _
      | none => exact .pure none

theorem proximityAhead_carries : Carries Restated proximityAhead := by
  unfold proximityAhead
  refine .look fun left right restated => ?_
  rw [restated.mayBeginProximity_eq]
  split
  · exact .wouldSucceed fun _ _ restated => isOk_proximity_eq restated
  · exact .pure false

theorem testQualifierForm_carries (scope : Scope) :
    Carries Restated (testQualifierForm scope) := by
  unfold testQualifierForm
  refine .look fun left right restated => ?_
  rw [restated.akin.nextIn_eq (by decide)]
  split
  · exact fieldQualifierForm_carries
  · exact .pure none

/-!
## Suffixes
-/

theorem loosening_carries (rule : Rule) {kinds : List TokenKind} {number : Reading (Leaf kinds)}
    (carries : Carries Restated number) :
    Carries Restated (look fun tokens =>
      if numericSuffixAhead tokens then
        within rule do
          advance
          let number ← number
          if stackedSuffixAhead tokens then
            fail .noViableAlternative []
          else
            return some number
      else
        return none) := by
  refine .look fun left right restated => ?_
  rw [restated.akin.numericSuffixAhead_eq]
  split
  · refine .within _ (.bind (.advance Restated.hereditary) fun _ => .bind carries fun _ => ?_)
    cases stacked : stackedSuffixAhead left with
    | true => exact .of_fail _ _ _
    | false =>
        rw [restated.stackedSuffixAhead_eq_false stacked]
        exact .pure _
  · exact .pure none

theorem fuzziness_carries : Carries Restated fuzziness :=
  loosening_carries _ (.takeOneOf Restated.hereditary (by decide))

theorem slop_carries : Carries Restated slop :=
  loosening_carries _ (.take Restated.hereditary (by decide))

theorem boost_carries : Carries Restated boost := by
  unfold boost
  refine .look fun left right restated => ?_
  rw [restated.akin.nextIs_eq (by decide)]
  split
  · exact .within _ (.bind (.advance Restated.hereditary) fun _ =>
      .bind (.takeOneOf Restated.hereditary (by decide)) fun _ => .pure _)
  · exact .pure none

/-!
## Tests
-/

theorem termWord_carries : Carries Restated (takeOneOf TokenKind.termWords) :=
  .takeOneOf Restated.hereditary (by decide)

theorem term_carries : Carries Restated term :=
  .within _ (.bind termWord_carries fun _ => .bind fuzziness_carries fun _ => .pure _)

theorem phrase_carries : Carries Restated phrase :=
  .within _ (.bind (.take Restated.hereditary (by decide)) fun _ =>
    .bind slop_carries fun _ => .pure _)

theorem exactTest_carries (scope : Scope) : Carries Restated (exactTest scope) := by
  unfold exactTest
  refine .within _ (.bind (.take Restated.hereditary (by decide)) fun _ =>
    .bind (optionalFieldQualifier_carries scope) fun _ => .look fun left right restated => ?_)
  rw [restated.akin.nextIs_eq (by decide)]
  split
  · exact .bind (.take Restated.hereditary (by decide)) fun _ => .bind slop_carries fun _ =>
      .pure _
  · exact .bind termWord_carries fun _ => .bind fuzziness_carries fun _ => .pure _

theorem synonym_carries (scope : Scope) : Carries Restated (synonym scope) :=
  .within _ (.bind (.take Restated.hereditary (by decide)) fun _ =>
    .bind (optionalFieldQualifier_carries scope) fun _ =>
      .bind termWord_carries fun _ => .bind fuzziness_carries fun _ => .pure _)

theorem range_carries : Carries Restated range := by
  have bound : Carries Restated (takeOneOf TokenKind.rangeBounds) :=
    .takeOneOf Restated.hereditary (by decide)
  unfold range
  refine .within _ (.look fun left right restated => ?_)
  rw [restated.akin.nextIn_eq (by decide), restated.akin.nextIs_eq (by decide)]
  split
  · exact .bind (.advance Restated.hereditary) fun _ => .bind bound fun _ =>
      .bind (.take Restated.hereditary (by decide)) fun _ => .bind bound fun _ =>
        .bind (.takeOneOf Restated.hereditary (by decide)) fun _ => .pure _
  · exact .bind bound fun _ => .bind (.take Restated.hereditary (by decide)) fun _ =>
      .bind bound fun _ => .pure _

theorem templateFields_carries (limit : Nat) : Carries Restated (templateFields limit) := by
  induction limit with
  | zero => exact .pure []
  | succ limit ih =>
      unfold templateFields
      refine .bind anyFieldReference_carries fun _ =>
        .bind (skip_carries Restated.hereditary (by decide)) fun _ =>
          .look fun left right restated => ?_
      rw [restated.akin.isEmpty_eq, restated.akin.nextIs_eq (by decide)]
      split
      · exact .pure _
      · exact .bind ih fun _ => .pure _

theorem template_carries : Carries Restated template := by
  unfold template
  refine .within _ (.bind (.take Restated.hereditary (by decide)) fun _ =>
    .look fun left right restated => ?_)
  rw [restated.akin.nextIs_eq (by decide)]
  split
  · refine .bind (.advance Restated.hereditary) fun _ => .look fun left right restated => ?_
    rw [restated.akin.nextIs_eq (by decide), restated.akin.length_eq]
    split
    · exact .of_fail _ _ _
    · exact .bind (templateFields_carries _) fun _ =>
        .bind (.take Restated.hereditary (by decide)) fun _ => .pure _
  · exact .bind anyFieldReference_carries fun _ => .pure _

section

variable {operands : Scope → Reading (List Operand)}

/-- No value of a field begins with a symbol. -/
theorem not_symbol_of_run_fieldValue {field : FieldReference} {tokens rest : List Token}
    {body : Body} (accepted : (fieldValue field operands).run tokens = .ok (body, rest)) :
    nextIn TokenKind.symbols tokens = false := by
  cases symbol : nextIn TokenKind.symbols tokens with
  | false => rfl
  | true =>
      obtain ⟨token, after, member, rfl⟩ := nextIn_eq_true_iff.mp symbol
      have wordless : token.kind ∉ TokenKind.words := by
        have apart : ∀ kind ∈ TokenKind.symbols, kind ∉ TokenKind.words := by decide
        exact apart _ member
      have alone : mayBeginProximity (token :: after) = false := by
        cases after <;> simp [mayBeginProximity, TokenKind.isWord, wordless]
      have unshaped : valueShape? (token :: after) = none := by
        simp only [TokenKind.symbols, List.mem_cons, List.not_mem_nil, or_false] at member
        rcases member with kind | kind | kind <;>
          simp [valueShape?, kind, TokenKind.isRangeBound, TokenKind.rangeBounds, TokenKind.isWord,
            TokenKind.words, TokenKind.wildcards]
      simp only [fieldValue, run_bind_eq_ok_iff, run_look, run_pure_eq_ok_iff] at accepted
      obtain ⟨shape, _, ⟨rfl, rfl⟩, decided⟩ := accepted
      rw [unshaped, run_bind_eq_ok_iff] at decided
      obtain ⟨near, between, looked, decided⟩ := decided
      rw [run_proximityAhead_of_absent alone] at looked
      cases looked
      exact absurd decided run_fail_ne_ok

variable (operandsCarry : ∀ scope, Carries Restated (operands scope))

include operandsCarry

theorem group_carries (scope : Scope) : Carries Restated (group scope (operands scope)) :=
  .within _ (.bind (.take Restated.hereditary (by decide)) fun _ =>
    .bind (operandsCarry scope) fun _ =>
      .bind (.take Restated.hereditary (by decide)) fun _ => .pure _)

theorem fieldValue_carries (field : FieldReference) :
    Carries Restated (fieldValue field operands) := by
  intro left right restated value rest accepted
  have same := restated.valueShape?_eq (not_symbol_of_run_fieldValue accepted)
  simp only [fieldValue, run_bind_eq_ok_iff, run_look, run_pure_eq_ok_iff] at accepted ⊢
  obtain ⟨shape, _, ⟨rfl, rfl⟩, decided⟩ := accepted
  refine Exists.imp (fun remaining read => ⟨⟨_, right, ⟨same.symm, rfl⟩, read.1⟩, read.2⟩)
    ((?carries : Carries Restated _) restated decided)
  generalize valueShape? left = shape
  split
  · exact .bind (group_carries operandsCarry .fieldGroup) fun _ => .pure _
  · exact .bind range_carries fun _ => .pure _
  · refine .bind proximityAhead_carries fun near => ?_
    split
    · exact .bind (proximity_carries Restated.hereditary (by decide)) fun _ => .pure _
    · split
      · exact .bind termWord_carries fun _ => .bind fuzziness_carries fun _ => .pure _
      · exact .bind (.take Restated.hereditary (by decide)) fun _ =>
          .bind slop_carries fun _ => .pure _
      · exact .look fun left right restated => .of_fail _ _ _

theorem plainTest_carries (scope : Scope) : Carries Restated (plainTest scope operands) := by
  unfold plainTest
  refine .look fun left right restated => ?_
  cases shaped : testShape? scope left with
  | none => exact .of_fail _ _ _
  | some shape =>
      rw [restated.testShape?_eq_some shaped]
      cases shape with
      | term => exact .bind term_carries fun _ => .pure _
      | phrase => exact .bind phrase_carries fun _ => .pure _
      | exact => exact .bind (exactTest_carries scope) fun _ => .pure _
      | synonym => exact .bind (synonym_carries scope) fun _ => .pure _
      | range => exact .bind range_carries fun _ => .pure _
      | group => exact .bind (group_carries operandsCarry scope) fun _ => .pure _
      | template => exact .bind template_carries fun _ => .pure _

theorem test_carries (scope : Scope) : Carries Restated (test scope operands) := by
  unfold test
  refine .within _ (.bind proximityAhead_carries fun near => ?_)
  split
  · exact .bind (proximity_carries Restated.hereditary (by decide)) fun _ => .pure _
  · refine .bind (testQualifierForm_carries scope) fun form => ?_
    cases form with
    | some qualified =>
        exact .within _ (.bind (fieldQualifier_carries Restated.hereditary qualified) fun field =>
          fieldValue_carries operandsCarry field)
    | none => exact plainTest_carries operandsCarry scope

end

/-!
## Operands
-/

theorem requireOperand_carries (scope : Scope) :
    Carries Restated (requireOperand (operandStarts scope)) := by
  unfold requireOperand
  refine .look fun left right restated => ?_
  cases starts : nextIn (operandStarts scope) left with
  | true =>
      rw [restated.nextIn_operandStarts starts]
      exact .pure ()
  | false => exact .of_fail _ _ _

theorem sign_carries : Carries Restated sign := by
  unfold sign
  refine .look fun left right restated => ?_
  rw [restated.signAhead_eq]
  split
  · exact .pure _
  · exact .bind (.advance Restated.hereditary) fun _ => .pure _

section

variable {scope : Scope} {operand : Link → Reading Operand} (writes : WritesOperand scope operand)
  (operandCarries : ∀ link, Carries Restated (operand link))

include writes operandCarries

theorem laterOperands_carries (limit : Nat) :
    Carries Restated (laterOperands scope operand limit) := by
  induction limit with
  | zero => exact .pure []
  | succ limit ih =>
      intro left right restated value rest accepted
      cases ahead : linkAhead? scope left with
      | none =>
          rw [run_laterOperands_of_unlinked ahead] at accepted
          cases accepted
          exact ⟨right, run_laterOperands_of_unlinked (restated.linkAhead?_eq_none ahead) _,
            restated⟩
      | some link =>
          obtain ⟨_, _, _, _, _, _, _, linked, firstRead, laterRead, rfl⟩ :=
            exists_of_run_laterOperands ahead accepted
          obtain ⟨_, rfl, _, written⟩ := writes link firstRead
          obtain ⟨_, linkedAgain, next⟩ := takeLink_carries Restated.hereditary link restated linked
          obtain ⟨_, firstAgain, between⟩ := operandCarries link next firstRead
          obtain ⟨remaining, laterAgain, behind⟩ := ih between laterRead
          have starts := next.nextIn_operandStarts (written.nextIn_operandStarts _)
          have relinked := restated.linkAhead?_eq_some ahead linkedAgain starts
          exact ⟨remaining,
            run_laterOperands_of_link relinked linkedAgain starts firstAgain laterAgain, behind⟩

theorem operands_carries : Carries Restated (operands scope operand) := by
  unfold operands
  refine .within _ (.bind (.within _ (.bind (requireOperand_carries _) fun _ => operandCarries _))
    fun _ => .bind (.look fun left right restated => ?_) fun _ => .pure _)
  rw [restated.akin.length_eq]
  exact laterOperands_carries writes operandCarries _

end

theorem operand_carries (levels : Nat) (scope : Scope) (link : Link) :
    Carries Restated (operand levels scope link) := by
  induction levels generalizing scope link with
  | zero => exact .within _ (.of_fail _ _ _)
  | succ levels ih =>
      unfold operand
      exact .within _ (.bind sign_carries fun _ =>
        .bind (test_carries (fun inner => operands_carries operand_written (ih inner)) scope)
          fun _ => .bind boost_carries fun _ => .pure _)

theorem query_carries : Carries Restated query :=
  .within _ (.bind (operands_carries operand_written (operand_carries maxLevels .query)) fun _ =>
    .bind (.atEnd Restated.hereditary) fun _ => .pure _)

end Grammar

/-- Operands that are read from a list are read from every list that the grammar carries over to. -/
theorem readTokens_of_carries {mode : Mode} {related : List Token → List Token → Prop}
    (carries : Carries related (readQuery mode.dialect)) {left right : List Token}
    (same : related left right) {operands : List Operand}
    (accepted : readTokens mode left = .ok operands) : readTokens mode right = .ok operands := by
  obtain ⟨rest, run⟩ := readTokens_eq_ok_iff.mp accepted
  obtain ⟨remaining, again, _⟩ := carries same run
  exact readTokens_eq_ok_iff.mpr ⟨remaining, again⟩

theorem readTokens_of_restated {mode : Mode} (full : mode.dialect = .full)
    {left right : List Token} (restated : Restated left right) {operands : List Operand}
    (accepted : readTokens mode left = .ok operands) : readTokens mode right = .ok operands := by
  apply readTokens_of_carries ?_ restated accepted
  rw [full, readQuery]
  exact Grammar.query_carries

end SearchQuery
