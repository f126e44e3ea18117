import SearchQuery.Proofs.Completion.Queries
import SearchQuery.Proofs.Faults.Causes
import SearchQuery.Proofs.Restricted.Acceptance
set_option autoImplicit false

/-!
# Every failure of the grammar is explained

The two grammars are walked through rule by rule. Parentheses of distances and templates are taken
and closed within one rule, so those that are open around an operand are those of groups, and there
are as many as levels have been used.
-/

namespace SearchQuery.Grammar

open Reading

variable {outer : List Rule} {depth : Int}

/-!
## Fields
-/

theorem skip_closes {kind : TokenKind} (apart : kind ≠ .lparen ∧ kind ≠ .rparen) :
    (skip kind).Closes := by
  intro tokens rest value accepted
  rcases skip_accepted accepted with rfl | ⟨mark, same, rfl⟩
  · exact ⟨[], rfl, rfl⟩
  · exact ⟨[mark], rfl, by simp [Token.opens_eq_zero_of_kind same apart]⟩

theorem skip_explained (kind : TokenKind) : Explained .full outer depth (skip kind) := by
  refine .look fun tokens => ?_
  split
  · next ahead =>
      obtain ⟨mark, rest, _, rfl⟩ := nextIs_eq_true_iff.mp ahead
      exact .of_ok rfl
  · exact .of_explained (.pure ())

theorem fieldReference_closes (qualified : Bool) : (fieldReference qualified).Closes :=
  fieldReference_written.mono fun _ _ written => written.opened_eq

theorem fieldReference_explained (qualified : Bool) :
    Explained .full outer depth (fieldReference qualified) := by
  refine .within (.bind (skip_closes (by decide)) (skip_explained _) fun _ =>
    .look fun tokens => ?_)
  split
  · exact .of_explained (.bind_take (by decide) fun _ => .bind_pure (.take (by nofun)) _)
  · split
    · exact .of_explained (.bind_take (by decide) fun _ =>
        .bind_take (by decide) fun _ => .bind_pure (.take (by nofun)) _)
    · exact .of_explained (.bind_pure (.take (by nofun)) _)

theorem anyFieldReference_explained : Explained .full outer depth anyFieldReference :=
  fun _ => .bind_quiet (wouldSucceed_quiet _) fun qualified _ =>
    .of_explained (fieldReference_explained qualified)

theorem fieldQualifier_explained (qualified : Bool) :
    Explained .full outer depth (fieldQualifier qualified) :=
  .bind (fieldReference_closes qualified) (fieldReference_explained qualified) fun _ =>
    .bind_pure (.take (by nofun)) _

theorem fieldQualifierForm_quiet : fieldQualifierForm.Quiet :=
  fun tokens => ⟨_, run_fieldQualifierForm tokens⟩

theorem optionalFieldQualifier_closes (scope : Scope) : (optionalFieldQualifier scope).Closes :=
  optionalFieldQualifier_written.mono fun _ _ written => written.opened_eq

theorem optionalFieldQualifier_explained (scope : Scope) :
    Explained .full outer depth (optionalFieldQualifier scope) := by
  cases scope with
  | fieldGroup => exact .pure none
  | query =>
      refine fun tokens => .bind_quiet fieldQualifierForm_quiet fun form _ => ?_
      cases form with
      | none => exact .of_explained (.pure none)
      | some qualified => exact .of_explained (.bind_pure (fieldQualifier_explained qualified) _)

/-!
## Suffixes
-/

theorem nextIs_of_stackedSuffixAhead {tilde number : Token} {behind : List Token}
    (stacked : stackedSuffixAhead (tilde :: number :: behind) = true) :
    nextIs .tilde behind = true := by
  cases behind with
  | nil => cases stacked
  | cons next rest =>
      simp only [stackedSuffixAhead, Bool.and_eq_true] at stacked
      obtain ⟨tilde, _, kind, split⟩ := numericSuffixAhead_eq_true stacked.2
      obtain ⟨rfl, _⟩ := List.cons.inj split
      simp [nextIs, kind]

theorem loosening_explained {rule : Rule} {kinds : List TokenKind} {number : Reading (Leaf kinds)}
    (leaf : number.Writes fun leaf taken => ∃ token, leaf.IsOf token ∧ taken = [token])
    (closes : number.Closes) (explained : Explained .full (outer ++ [rule]) depth number) :
    Explained .full outer depth
      (look fun tokens =>
        if numericSuffixAhead tokens then
          within rule do
            advance
            let number ← number
            if stackedSuffixAhead tokens then
              fail .noViableAlternative []
            else
              return some number
        else
          return none) := by
  refine .look fun tokens => ?_
  split
  · next ahead =>
      obtain ⟨tilde, rest, kind, rfl⟩ := numericSuffixAhead_eq_true ahead
      refine .within (.advance_closed (Token.opens_eq_zero_of_kind kind (by decide))
        (.bind_closed closes (explained rest) fun read behind accepted => ?_))
      split
      · next stacked =>
          obtain ⟨_, rfl, token, _, rfl⟩ := leaf accepted
          exact .fail (.suffixAgain (nextIs_of_stackedSuffixAhead stacked))
      · exact .of_explained (.pure _)
  · exact .of_explained (.pure _)

theorem fuzziness_explained : Explained .full outer depth fuzziness :=
  loosening_explained takeOneOf_written (.takeOneOf (by decide)) (.takeOneOf (by decide))

theorem slop_explained : Explained .full outer depth slop :=
  loosening_explained take_written (.take (by decide)) (.take (by nofun))

theorem boost_explained : Explained .full outer depth boost := by
  refine .look fun tokens => ?_
  split
  · next ahead =>
      obtain ⟨caret, rest, kind, rfl⟩ := nextIs_eq_true_iff.mp ahead
      exact .within (.advance_closed (Token.opens_eq_zero_of_kind kind (by decide))
        (.of_explained (.bind_pure (.takeOneOf (by decide)) _)))
  · exact .of_explained (.pure _)

/-!
## Tests
-/

theorem term_explained : Explained .full outer depth term :=
  .within (.bind_takeOneOf (by decide) fun _ => .bind_pure fuzziness_explained _)

theorem phrase_explained : Explained .full outer depth phrase :=
  .within (.bind_take (by decide) fun _ => .bind_pure slop_explained _)

theorem exactTest_explained (scope : Scope) : Explained .full outer depth (exactTest scope) := by
  refine .within (.bind_take (by decide) fun _ =>
    .bind (optionalFieldQualifier_closes scope) (optionalFieldQualifier_explained scope) fun _ =>
      .look fun tokens => ?_)
  split
  · exact .of_explained (.bind_take (by decide) fun _ => .bind_pure slop_explained _)
  · exact .of_explained (.bind_takeOneOf (by decide) fun _ => .bind_pure fuzziness_explained _)

theorem synonym_explained (scope : Scope) : Explained .full outer depth (synonym scope) :=
  .within (.bind_take (by decide) fun _ =>
    .bind (optionalFieldQualifier_closes scope) (optionalFieldQualifier_explained scope) fun _ =>
      .bind_takeOneOf (by decide) fun _ => .bind_pure fuzziness_explained _)

theorem range_explained : Explained .full outer depth range := by
  refine .within (.look fun tokens => ?_)
  split
  · next ahead =>
      obtain ⟨opening, rest, kind, rfl⟩ := nextIn_eq_true_iff.mp ahead
      refine .advance_closed (opening.opens_eq_zero kind (by decide)) (.of_explained ?_)
      exact .bind_takeOneOf (by decide) fun _ => .bind_take (by decide) fun _ =>
        .bind_takeOneOf (by decide) fun _ => .bind_pure (.takeOneOf (by decide)) _
  · exact .of_explained (.bind_takeOneOf (by decide) fun _ =>
      .bind_take (by decide) fun _ => .bind_pure (.takeOneOf (by decide)) _)

theorem distance_explained (level : 0 ≤ depth) : Explained .full outer depth distance := by
  refine .look fun tokens => ?_
  split
  · next ahead =>
      obtain ⟨opening, rest, kind, rfl⟩ := nextIs_eq_true_iff.mp ahead
      refine .advance_bind (.of_explained ?_)
      rw [Token.opens_of_lparen kind]
      refine .bind (.look fun inside => ?closes) (.look fun inside => ?limit) fun limit =>
        .bind_pure (.take fun _ => Int.lt_add_one_iff.mpr level) _
      case closes =>
        split
        · exact .bind_pure (.take (by decide)) _
        · exact .pure _
      case limit =>
        split
        · exact .of_explained (.bind_pure (.take (by nofun)) _)
        · exact .of_explained (.pure _)
  · exact .of_explained (.pure _)

theorem distance_closes : distance.Closes :=
  distance_written.mono fun _ _ written => written.opened_eq

theorem proximitySteps_explained (level : 0 ≤ depth) (limit : Nat) :
    Explained .full outer depth (proximitySteps limit) := by
  induction limit with
  | zero => exact .pure []
  | succ limit ih =>
      refine .bind_take (by decide) fun _ =>
        .bind distance_closes (distance_explained level) fun _ =>
          .bind_takeOneOf (by decide) fun _ => .look fun tokens => ?_
      split
      · exact .of_explained (.bind_pure ih _)
      · exact .of_explained (.pure _)

theorem proximity_explained (level : 0 ≤ depth) : Explained .full outer depth proximity :=
  .within (.bind_takeOneOf (by decide) fun _ =>
    .bind_pure (.look fun _ => proximitySteps_explained level _ _) _)

/-- A proximity is read where one is found, and something else where none is. -/
theorem proximityAhead_explainedAt {α : Type} {change : Test → α} {other : Reading α}
    {tokens : List Token} (level : 0 ≤ depth)
    (explained : ExplainedAt .full outer depth other tokens) :
    ExplainedAt .full outer depth
      (do if ← proximityAhead then return change (← proximity) else other) tokens := by
  refine .bind_quiet (fun tokens => ⟨_, run_proximityAhead_eq tokens⟩) fun found _ => ?_
  cases found with
  | true => exact .of_explained (.bind_pure (proximity_explained level) _)
  | false => exact explained

theorem anyFieldReference_closes : anyFieldReference.Closes :=
  anyFieldReference_written.mono fun _ _ written => written.opened_eq

theorem templateFields_explained (limit : Nat) :
    Explained .full outer depth (templateFields limit) := by
  induction limit with
  | zero => exact .pure []
  | succ limit ih =>
      refine .bind anyFieldReference_closes anyFieldReference_explained fun _ =>
        .bind (skip_closes (by decide)) (skip_explained _) fun _ => .look fun tokens => ?_
      split
      · exact .of_explained (.pure _)
      · exact .of_explained (.bind_pure ih _)

theorem templateFields_closes (limit : Nat) : (templateFields limit).Closes :=
  templateFields_written.mono fun _ _ written => written.1.opened_eq

theorem template_explained (level : 0 ≤ depth) : Explained .full outer depth template := by
  refine .within (.bind_take (by decide) fun _ => .look fun tokens => ?_)
  split
  · next ahead =>
      obtain ⟨opening, rest, kind, rfl⟩ := nextIs_eq_true_iff.mp ahead
      refine .advance_bind (.of_explained (.look fun inside => ?_))
      rw [Token.opens_of_lparen kind]
      split
      · next closing => exact .fail (.noField closing)
      · exact .of_explained (.bind (templateFields_closes _) (templateFields_explained _) fun _ =>
          .bind_pure (.take fun _ => Int.lt_add_one_iff.mpr level) _)
  · exact .of_explained (.bind_pure anyFieldReference_explained _)

/-!
## Tests that hold operands
-/

theorem testQualifierForm_quiet (scope : Scope) : (testQualifierForm scope).Quiet := by
  intro tokens
  rw [testQualifierForm, run_look]
  split
  · exact fieldQualifierForm_quiet tokens
  · exact ⟨none, rfl⟩

section

variable {operands : Scope → Reading (List Operand)} (level : 0 ≤ depth)
  (writes : ∀ scope, WritesOperands scope (operands scope))
  (inner : ∀ scope outer, Explained .full outer (depth + 1) (operands scope))

include level writes inner

theorem group_explained (scope : Scope) :
    Explained .full outer depth (group scope (operands scope)) := by
  refine .within fun tokens =>
    .bind (.of_explained (.take (by nofun))) fun leaf rest accepted => ?_
  obtain ⟨opening, same, rfl⟩ := run_take_eq_ok_iff.mp accepted
  -- Inside, one more parenthesis is open, so a missing one is asked for with reason.
  have deeper : depth + opened [opening] = depth + 1 := by
    simp [Token.opens_of_lparen same.kind_eq]
  refine ⟨[opening], rfl, ?_⟩
  rw [deeper]
  have closes : (operands scope).Closes := (writes scope).mono fun _ _ written => written.opened_eq
  exact .of_explained (.bind closes (inner scope _) fun _ =>
    .bind_pure (.take fun _ => Int.lt_add_one_iff.mpr level) _)

theorem fieldValue_explained (field : FieldReference) :
    Explained .full (outer ++ [.fieldQualified]) depth (fieldValue field operands) := by
  intro tokens
  refine .bind_quiet (fun _ => ⟨_, rfl⟩) fun shape looked => ?_
  cases looked
  cases shaped : valueShape? tokens with
  | none => exact proximityAhead_explainedAt level (.fail (.noValue shaped))
  | some shape =>
      cases shape with
      | group =>
          exact .of_explained (.bind_pure (group_explained level writes inner .fieldGroup) _)
      | range => exact .of_explained (.bind_pure range_explained _)
      | word =>
          exact proximityAhead_explainedAt level (.of_explained
            (.bind_takeOneOf (by decide) fun _ => .bind_pure fuzziness_explained _))
      | phrase =>
          exact proximityAhead_explainedAt level (.of_explained
            (.bind_take (by decide) fun _ => .bind_pure slop_explained _))

theorem fieldQualified_explained (qualified : Bool) :
    Explained .full outer depth (fieldQualified qualified operands) := by
  have closes : (fieldQualifier qualified).Closes :=
    fieldQualifier_written.mono fun _ _ written => written.opened_eq
  exact .within (.bind closes (fieldQualifier_explained qualified) fun field =>
    fieldValue_explained level writes inner field)

theorem plainTest_explainedAt {scope : Scope} {tokens : List Token}
    (looked : (testQualifierForm scope).run tokens = .ok (none, tokens)) :
    ExplainedAt .full (outer ++ [.test scope]) depth (plainTest scope operands) tokens := by
  refine .of_run_eq (run_look _ tokens) ?_
  cases shaped : testShape? scope tokens with
  | none => exact .fail (.noTest shaped looked)
  | some shape =>
      apply ExplainedAt.of_explained
      cases shape with
      | term => exact .bind_pure term_explained _
      | phrase => exact .bind_pure phrase_explained _
      | exact => exact .bind_pure (exactTest_explained scope) _
      | synonym => exact .bind_pure (synonym_explained scope) _
      | range => exact .bind_pure range_explained _
      | group => exact .bind_pure (group_explained level writes inner scope) _
      | template => exact .bind_pure (template_explained level) _

theorem test_explained (scope : Scope) :
    Explained .full outer depth (test scope operands) := by
  refine .within fun tokens => proximityAhead_explainedAt level
    (.bind_quiet (testQualifierForm_quiet scope) fun form looked => ?_)
  cases form with
  | none => exact plainTest_explainedAt level writes inner looked
  | some qualified => exact .of_explained (fieldQualified_explained level writes inner qualified)

end

/-!
## Operands
-/

theorem requireOperand_closes (starts : List TokenKind) : (requireOperand starts).Closes := by
  intro tokens rest value accepted
  exact ⟨[], requireOperand_accepted accepted, rfl⟩

theorem requireOperand_explained (scope : Scope) :
    Explained .full outer depth (requireOperand (operandStarts scope)) := by
  refine .look fun tokens => ?_
  split
  · exact .of_explained (.pure ())
  · next absent => exact .fail (.noOperand (by simpa using absent))

theorem sign_closes : sign.Closes :=
  sign_written.mono fun _ _ written => written.opened_eq

theorem sign_explained : Explained .full outer depth sign := by
  intro tokens failure rejected
  exact absurd ⟨failure, rejected, rfl⟩ not_stops_sign

theorem takeLink_explainedAt {scope : Scope} {tokens : List Token} {link : Link}
    (ahead : linkAhead? scope tokens = some link) :
    ExplainedAt .full outer depth (takeLink link) tokens := by
  cases tokens with
  | nil => cases ahead
  | cons token rest => cases link <;> exact .of_ok rfl

section

variable {scope : Scope} {operand : Link → Reading Operand} (writes : WritesOperand scope operand)

include writes

theorem conjunct_closes {starts : List TokenKind} (link : Link) :
    Reading.Closes (do
      if link ≠ .and then
        requireOperand starts
      operand link) := by
  intro tokens rest value accepted
  obtain ⟨taken, split, _, written⟩ := writes link (conjunct_accepted accepted)
  exact ⟨taken, split, written.opened_eq⟩

theorem laterOperands_explained
    (each : ∀ link outer, Explained .full outer depth (operand link)) (limit : Nat) :
    Explained .full outer depth (laterOperands scope operand limit) := by
  induction limit with
  | zero => exact .pure []
  | succ limit ih =>
      refine .look fun tokens => ?_
      cases ahead : linkAhead? scope tokens with
      | none => exact .of_explained (.pure [])
      | some link =>
          refine .bind (takeLink_explainedAt ahead) fun _ rest linked => ?_
          obtain ⟨operator, split, written⟩ := takeLink_written ahead linked
          refine ⟨operator, split, ?_⟩
          rw [written.opened_eq, Int.add_zero]
          refine .of_explained (.bind (.within (conjunct_closes writes link)) (.within ?conjunct)
            fun _ => .bind_pure ih _)
          split
          · exact .bind (requireOperand_closes _) (requireOperand_explained scope) fun _ =>
              each _ _
          · exact .bind (.pure _) (.pure _) fun _ => each _ _

/-- Only behind a first operand are there others. -/
theorem operands_explained
    (first : ∀ tokens outer, nextIn (operandStarts scope) tokens = true →
      ExplainedAt .full outer depth (operand .opening) tokens)
    (later : ∀ tokens result, (operand .opening).run tokens = .ok result →
      ∀ link outer, Explained .full outer depth (operand link)) :
    Explained .full outer depth (operands scope operand) := by
  have opening {tokens rest : List Token} {read : Operand}
      (accepted : Reading.run (do
        requireOperand (operandStarts scope)
        operand .opening) tokens = .ok (read, rest)) :
      (operand .opening).run tokens = .ok (read, rest) := by
    obtain ⟨_, _, required, accepted⟩ := run_bind_eq_ok_iff.mp accepted
    obtain rfl := requireOperand_accepted required
    exact accepted
  refine .within fun tokens => .bind_closed (.within ?closes) (.within ?first)
    fun _ between read => ?later
  case closes =>
    intro tokens rest read accepted
    obtain ⟨taken, split, _, written⟩ := writes .opening (opening accepted)
    exact ⟨taken, split, written.opened_eq⟩
  case first =>
    refine .bind_closed (requireOperand_closes _) (.of_explained (requireOperand_explained scope))
      fun _ rest required => ?_
    obtain ⟨rfl, starts⟩ := run_requireOperand_eq_ok_iff.mp required
    exact first tokens _ starts
  case later =>
    have each := later tokens _ (opening ((run_within_eq_ok_iff _ _ _ _).mp read))
    exact .of_explained (.bind_pure (.look fun _ =>
      .of_explained (laterOperands_explained writes each _)) _)

end

/-- There are as many levels as parentheses that are open and may still be opened. -/
theorem explained_of_levels {levels : Nat} (level : 0 ≤ depth) (sum : depth + levels = maxLevels)
    (scope : Scope) : Explained .full outer depth (operands scope (operand levels scope)) := by
  induction levels generalizing outer depth scope with
  | zero =>
      -- The first operand fails as soon as it begins, so no others are read.
      refine operands_explained operand_written ?first ?later
      case first =>
        intro tokens outer starts
        exact .within (.fail (.tooDeep (by simpa using sum) starts))
      case later =>
        intro tokens result accepted
        rw [operand, run_within_eq_ok_iff] at accepted
        exact absurd accepted run_fail_ne_ok
  | succ levels ih =>
      have writes (inner : Scope) : WritesOperands inner (operands inner (operand levels inner)) :=
        operands_written operand_written
      have inner (scope : Scope) (outer : List Rule) :
          Explained .full outer (depth + 1) (operands scope (operand levels scope)) :=
        ih (by omega) (by omega) scope
      have each (link : Link) (outer : List Rule) :
          Explained .full outer depth (operand (levels + 1) scope link) := by
        have closes : (test scope fun inner => operands inner (operand levels inner)).Closes :=
          (test_written writes).mono fun _ _ written => written.opened_eq
        exact .within (.bind sign_closes sign_explained fun _ =>
          .bind closes (test_explained level writes inner scope) fun _ =>
            .bind_pure boost_explained _)
      exact operands_explained operand_written (fun tokens outer _ => each .opening outer tokens)
        fun _ _ _ => each

theorem query_explained : Explained .full [] 0 query := by
  have closes : (operands .query (operand maxLevels .query)).Closes :=
    (operands_written operand_written).mono fun _ _ written => written.opened_eq
  have level : Explained .full [.query] 0 (operands .query (operand maxLevels .query)) :=
    explained_of_levels (Int.le_refl 0) (Int.zero_add _) .query
  refine .within (.bind closes level fun read => .bind_pure ?_ _)
  intro tokens
  cases tokens with
  | nil => exact .of_ok rfl
  | cons token behind =>
      intro failure rejected
      cases rejected
      exact ⟨[], rfl, .leftOver⟩

end SearchQuery.Grammar

namespace SearchQuery.Grammar.Cmis

open Reading

variable {outer : List Rule} {depth : Int}

/-!
## The restricted language
-/

theorem test_explained : Explained .cmis outer depth test := by
  refine .within (.look fun tokens => ?_)
  split
  · exact .of_explained (.bind_pure (.takeOneOf (by decide)) _)
  · next noWord =>
      split
      · exact .of_explained (.bind_pure (.take (by nofun)) _)
      · next noPhrase =>
          refine .fail (.noItemTest ?_)
          cases tokens with
          | nil => rfl
          | cons token rest => simp_all [nextIn, nextIs]

theorem item_explained (link : Link) : Explained .cmis outer depth (item link) := by
  refine .within (.bind ?closes (.look fun tokens => ?sign) fun _ => .bind_pure test_explained _)
  case closes =>
    intro tokens rest sign accepted
    rw [run_look] at accepted
    split at accepted
    · next ahead =>
        obtain ⟨minus, _, kind, rfl⟩ := nextIs_eq_true_iff.mp ahead
        cases accepted
        exact ⟨[minus], rfl, by simp [Token.opens_eq_zero_of_kind kind (by decide)]⟩
    · exact Closes.pure _ accepted
  case sign =>
    split
    · next ahead =>
        obtain ⟨minus, _, _, rfl⟩ := nextIs_eq_true_iff.mp ahead
        exact .of_ok rfl
    · exact .of_explained (.pure _)

theorem requireItem_closes : requireItem.Closes := by
  intro tokens rest value accepted
  exact ⟨[], requireItem_accepted accepted, rfl⟩

theorem requireItem_explained : Explained .cmis outer depth requireItem := by
  refine .look fun tokens => ?_
  split
  · next absent => exact .fail (.noItem (by simpa using absent))
  · exact .of_explained (.pure ())

theorem requiredItem_explained (rule : Rule) (link : Link) :
    Explained .cmis outer depth (within rule do requireItem; item link) :=
  .within (.bind requireItem_closes requireItem_explained fun _ => item_explained link)

theorem requiredItem_closes (rule : Rule) (link : Link) :
    Reading.Closes (within rule do requireItem; item link) := by
  refine .within fun tokens rest read accepted => ?_
  obtain ⟨_, _, required, accepted⟩ := run_bind_eq_ok_iff.mp accepted
  obtain rfl := requireItem_accepted required
  obtain ⟨taken, split, _, _, written⟩ := item_written link accepted
  exact ⟨taken, split, written.opened_eq⟩

theorem takeLink_explainedAt {tokens : List Token} {link : Link}
    (ahead : linkAhead? tokens = some link) :
    ExplainedAt .cmis outer depth (takeLink link) tokens := by
  cases tokens with
  | nil => cases ahead
  | cons token rest => cases link <;> exact .of_ok rfl

theorem laterItems_explained (limit : Nat) : Explained .cmis outer depth (laterItems limit) := by
  induction limit with
  | zero => exact .pure []
  | succ limit ih =>
      refine .look fun tokens => ?_
      cases ahead : linkAhead? tokens with
      | none => exact .of_explained (.pure [])
      | some link =>
          refine .bind (takeLink_explainedAt ahead) fun _ rest linked => ?_
          obtain ⟨divider, split, written⟩ := takeLink_written ahead linked
          refine ⟨divider, split, ?_⟩
          rw [written.opened_eq, Int.add_zero]
          exact .of_explained (.bind (requiredItem_closes _ link) (requiredItem_explained _ link)
            fun _ => .bind_pure ih _)

theorem items_explained : Explained .cmis outer depth items :=
  .within (.bind (requiredItem_closes _ _) (requiredItem_explained _ _) fun _ =>
    .bind_pure (.look fun _ => .of_explained (laterItems_explained _)) _)

/-- Items are read for as long as tokens are left. -/
theorem eq_nil_of_run_items {tokens rest : List Token} {read : List Operand}
    (accepted : items.run tokens = .ok (read, rest)) : rest = [] := by
  cases rest with
  | nil => rfl
  | cons token behind =>
      have rejected : query.run tokens =
          .error ⟨.unexpectedExtraToken, [], token :: behind, [.cmisQuery]⟩ := by
        simp only [query, within, run_bind, accepted, atEnd]
      have outcome := Restricted.query_outcome tokens
      rw [rejected] at outcome
      cases outcome with
      | rejected refused =>
          obtain ⟨rule, _, blames⟩ := refused.blamed
          cases blames

theorem query_explained : Explained .cmis [] 0 query := by
  refine .within fun tokens => .bind (items_explained tokens) fun read rest accepted => ?_
  obtain rfl := eq_nil_of_run_items accepted
  exact ⟨tokens, by simp, .of_ok rfl⟩

end SearchQuery.Grammar.Cmis

namespace SearchQuery

theorem readQuery_explained (dialect : Dialect) :
    Reading.Explained dialect [] 0 (readQuery dialect) := by
  cases dialect with
  | full => exact Grammar.query_explained
  | cmis => exact Grammar.Cmis.query_explained

end SearchQuery
