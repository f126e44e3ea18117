import SearchQuery.Parse
import SearchQuery.Proofs.Reading.Committed
import SearchQuery.Proofs.Reading.Laws
set_option autoImplicit false

/-!
# What the grammar tries

Every trial of the grammar is of a proximity or of a field, makes no trial itself, and is kept:
where it succeeds, the grammar reads the same tokens again and goes on behind them. A proximity is
never read unless that has succeeded, so no failure blames it. A field is read without a trial that
succeeded in templates only, where a field must be.
-/

namespace SearchQuery

open Grammar Reading

/-- The rules that a failure can blame inside a template. -/
inductive BlamesField : List Rule → Prop where
  | nowhere : BlamesField []
  | field : BlamesField [.fieldReference]

/-- The rules that are never tried. -/
def Rule.isUntried : Rule → Bool
  | proximity | fieldReference => false
  | _ => true

/-- The rules that a failure can blame. -/
inductive Tidy : List Rule → Prop where
  | nil : Tidy []
  | cons {rule : Rule} {rules : List Rule} :
      rule.isUntried = true → Tidy rules → Tidy (rule :: rules)
  | template {rules : List Rule} : BlamesField rules → Tidy (.template :: rules)

theorem Tidy.proximity_not_mem {rules : List Rule} (tidy : Tidy rules) :
    Rule.proximity ∉ rules := by
  induction tidy with
  | nil => exact List.not_mem_nil
  | cons untried _ ih =>
      intro member
      rcases List.mem_cons.mp member with rfl | later
      · cases untried
      · exact ih later
  | template blames => cases blames <;> decide

/-- A field reference that is blamed is the innermost rule, and its template is right outside. -/
theorem Tidy.fieldReference_last {rules before after : List Rule} (tidy : Tidy rules)
    (blamed : rules = before ++ .fieldReference :: after) :
    after = [] ∧ before.getLast? = some .template := by
  induction tidy generalizing before with
  | nil => simp at blamed
  | cons untried _ ih =>
      cases before with
      | nil =>
          cases blamed
          cases untried
      | cons first before =>
          obtain ⟨_, blamed⟩ := List.cons.inj blamed
          obtain ⟨rfl, last⟩ := ih blamed
          exact ⟨rfl, by rw [List.getLast?_cons, last]; rfl⟩
  | template blames =>
      cases before with
      | nil => cases blamed
      | cons first before =>
          obtain ⟨rfl, blamed⟩ := List.cons.inj blamed
          cases blames with
          | nowhere => simp at blamed
          | field =>
              cases before with
              | nil =>
                  cases blamed
                  exact ⟨rfl, rfl⟩
              | cons second before => simp at blamed

namespace Grammar

variable {α : Type} {tried : Trial → Prop} {blamed : List Rule → Prop}

/-!
## What is tried
-/

/-- The readings that are tried. -/
inductive Guess : {α : Type} → Reading α → Prop where
  | proximity : Guess proximity
  | fieldReference (qualified : Bool) : Guess (fieldReference qualified)
  | fieldQualifier (qualified : Bool) : Guess (fieldQualifier qualified)

/-- A trial that is what a guess comes to. -/
inductive Guessed : Trial → Prop where
  | intro {α : Type} {reading : Reading α} (guess : Guess reading) (tokens : List Token) :
      Guessed ⟨tokens, reading.stop tokens, (reading.run tokens).isOk⟩

theorem skip_committed (unblamed : blamed []) (kind : TokenKind) :
    Committed tried blamed (skip kind) := by
  unfold skip
  refine .look fun tokens => ?_
  split
  · exact .advance unblamed
  · exact .pure ()

/-- Only its own rule is blamed by a field reference. -/
theorem fieldReference_committed (qualified : Bool) :
    Committed tried (Eq [.fieldReference]) (fieldReference qualified) := by
  unfold fieldReference
  suffices inner : Committed tried (Eq []) _ from inner.within fun rules none => by rw [none]
  refine .bind (skip_committed rfl _) fun _ => .look fun tokens => ?_
  split
  · exact .bind (.take rfl _) fun _ => .bind (.take rfl _) fun _ => .pure _
  · split
    · exact .bind (.take rfl _) fun _ => .bind (.take rfl _) fun _ =>
        .bind (.take rfl _) fun _ => .pure _
    · exact .bind (.take rfl _) fun _ => .pure _

theorem fieldReference_plain (qualified : Bool) : Plain (fieldReference qualified) :=
  (fieldReference_committed qualified).mono fun _ _ => trivial

theorem fieldQualifier_plain (qualified : Bool) : Plain (fieldQualifier qualified) :=
  .bind (fieldReference_plain qualified) fun _ => .bind (.take trivial _) fun _ => .pure _

theorem distance_plain : Plain distance := by
  unfold distance
  refine .look fun tokens => ?_
  split
  · refine .bind (.advance trivial) fun _ => .bind (.look fun inside => ?_) fun _ =>
      .bind (.take trivial _) fun _ => .pure _
    split
    · exact .bind (.take trivial _) fun _ => .pure _
    · exact .pure _
  · exact .pure _

theorem proximitySteps_plain (limit : Nat) : Plain (proximitySteps limit) := by
  induction limit with
  | zero => exact .pure _
  | succ limit ih =>
      unfold proximitySteps
      refine .bind (.take trivial _) fun _ => .bind distance_plain fun _ =>
        .bind (.takeOneOf trivial _) fun _ => .look fun tokens => ?_
      split
      · exact .bind ih fun _ => .pure _
      · exact .pure _

theorem proximity_plain : Plain proximity := by
  unfold proximity
  suffices inner : Plain _ from Committed.within inner fun _ _ => trivial
  exact .bind (.takeOneOf trivial _) fun _ =>
    .bind (.look fun tokens => proximitySteps_plain _) fun _ => .pure _

theorem Guess.plain {reading : Reading α} (guess : Guess reading) : Plain reading := by
  cases guess with
  | proximity => exact proximity_plain
  | fieldReference qualified => exact fieldReference_plain qualified
  | fieldQualifier qualified => exact fieldQualifier_plain qualified

/-!
## What is decided by trials
-/

/-- Where a guess comes true it is read again, and what is read behind it is what counts. -/
theorem Guess.attempt {β : Type} {reading : Reading α} {next : Bool → Reading β}
    (guess : Guess reading)
    (succeeded : ∀ tokens value rest, reading.run tokens = .ok (value, rest) →
      ∃ later, Committed Guessed blamed later ∧ Resumes (next true) tokens later rest)
    (failed : Committed Guessed blamed (next false)) :
    Committed Guessed blamed (wouldSucceed reading >>= next) :=
  .attempt guess.plain (Guessed.intro guess) succeeded failed

theorem anyFieldReference_committed :
    Committed Guessed BlamesField anyFieldReference := by
  unfold anyFieldReference
  refine Guess.attempt (.fieldReference true) ?succeeded ?failed
  case succeeded =>
    intro tokens field rest accepted
    have resumes := (fieldReference_plain true).resumes accepted Pure.pure
    rw [bind_pure] at resumes
    exact ⟨_, .pure field, resumes⟩
  case failed =>
    refine (fieldReference_committed false).mono fun rules same => ?_
    rw [← same]
    exact .field

theorem fieldQualifierForm_committed {β : Type} {next : Option Bool → Reading β}
    (found : ∀ qualified tokens field rest,
      (fieldQualifier qualified).run tokens = .ok (field, rest) →
      ∃ later, Committed Guessed blamed later ∧
        Resumes (next (some qualified)) tokens later rest)
    (notFound : Committed Guessed blamed (next none)) :
    Committed Guessed blamed (fieldQualifierForm >>= next) := by
  unfold fieldQualifierForm
  rw [bind_assoc]
  refine Guess.attempt (.fieldQualifier true) (found true) ?_
  simp only [Bool.false_eq_true, if_false]
  rw [bind_assoc]
  exact Guess.attempt (.fieldQualifier false) (found false) notFound

theorem testQualifierForm_committed {β : Type} {scope : Scope} {next : Option Bool → Reading β}
    (found : ∀ qualified tokens field rest,
      (fieldQualifier qualified).run tokens = .ok (field, rest) →
      ∃ later, Committed Guessed blamed later ∧ Resumes (next (some qualified)) tokens later rest)
    (notFound : Committed Guessed blamed (next none)) :
    Committed Guessed blamed (testQualifierForm scope >>= next) := by
  suffices each : ∀ tokens, Committed Guessed blamed
      ((if scope = .query ∧ nextIn [.id, .atSign, .uri] tokens = true then fieldQualifierForm
        else return none) >>= next) from .look each
  intro tokens
  split
  · exact fieldQualifierForm_committed found notFound
  · exact notFound

theorem optionalFieldQualifier_committed (scope : Scope) :
    Committed Guessed blamed (optionalFieldQualifier scope) := by
  cases scope with
  | fieldGroup => exact .pure none
  | query =>
      refine fieldQualifierForm_committed ?_ (.pure none)
      intro qualified tokens field rest accepted
      exact ⟨_, .pure (some field), (fieldQualifier_plain qualified).resumes accepted _⟩

theorem proximityAhead_committed {β : Type} {next : Bool → Reading β}
    (found : ∀ tokens test rest, proximity.run tokens = .ok (test, rest) →
      ∃ later, Committed Guessed blamed later ∧ Resumes (next true) tokens later rest)
    (notFound : Committed Guessed blamed (next false)) :
    Committed Guessed blamed (proximityAhead >>= next) := by
  suffices each : ∀ tokens, Committed Guessed blamed
      ((if mayBeginProximity tokens then wouldSucceed proximity else return false) >>= next) from
    .look each
  intro tokens
  split
  · exact Guess.attempt .proximity found notFound
  · exact notFound

/-!
## What is blamed
-/

/-- A rule that is neither tried nor a template. -/
theorem tidy_within {rule : Rule} {reading : Reading α} (untried : rule.isUntried = true)
    (committed : Committed Guessed Tidy reading) :
    Committed Guessed Tidy (within rule reading) :=
  Committed.within committed fun _ tidy => .cons untried tidy

theorem fuzziness_committed : Committed Guessed Tidy fuzziness := by
  unfold fuzziness
  refine .look fun tokens => ?_
  split
  · refine tidy_within rfl (.bind (.advance .nil) fun _ => .bind (.takeOneOf .nil _) fun _ => ?_)
    split
    · exact .fail .nil _ _
    · exact .pure _
  · exact .pure _

theorem slop_committed : Committed Guessed Tidy slop := by
  unfold slop
  refine .look fun tokens => ?_
  split
  · refine tidy_within rfl (.bind (.advance .nil) fun _ => .bind (.take .nil _) fun _ => ?_)
    split
    · exact .fail .nil _ _
    · exact .pure _
  · exact .pure _

theorem boost_committed : Committed Guessed Tidy boost := by
  unfold boost
  refine .look fun tokens => ?_
  split
  · exact tidy_within rfl (.bind (.advance .nil) fun _ =>
      .bind (.takeOneOf .nil _) fun _ => .pure _)
  · exact .pure _

theorem term_committed : Committed Guessed Tidy term :=
  tidy_within rfl (.bind (.takeOneOf .nil _) fun _ => .bind fuzziness_committed fun _ => .pure _)

theorem phrase_committed : Committed Guessed Tidy phrase :=
  tidy_within rfl (.bind (.take .nil _) fun _ => .bind slop_committed fun _ => .pure _)

theorem exactTest_committed (scope : Scope) : Committed Guessed Tidy (exactTest scope) := by
  refine tidy_within rfl (.bind (.take .nil _) fun _ =>
    .bind (optionalFieldQualifier_committed scope) fun _ => .look fun tokens => ?_)
  split
  · exact .bind (.take .nil _) fun _ => .bind slop_committed fun _ => .pure _
  · exact .bind (.takeOneOf .nil _) fun _ => .bind fuzziness_committed fun _ => .pure _

theorem synonym_committed (scope : Scope) : Committed Guessed Tidy (synonym scope) :=
  tidy_within rfl (.bind (.take .nil _) fun _ =>
    .bind (optionalFieldQualifier_committed scope) fun _ => .bind (.takeOneOf .nil _) fun _ =>
      .bind fuzziness_committed fun _ => .pure _)

theorem range_committed : Committed Guessed Tidy range := by
  refine tidy_within rfl (.look fun tokens => ?_)
  split
  · exact .bind (.advance .nil) fun _ => .bind (.takeOneOf .nil _) fun _ =>
      .bind (.take .nil _) fun _ => .bind (.takeOneOf .nil _) fun _ =>
        .bind (.takeOneOf .nil _) fun _ => .pure _
  · exact .bind (.takeOneOf .nil _) fun _ => .bind (.take .nil _) fun _ =>
      .bind (.takeOneOf .nil _) fun _ => .pure _

theorem templateFields_committed (limit : Nat) :
    Committed Guessed BlamesField (templateFields limit) := by
  induction limit with
  | zero => exact .pure []
  | succ limit ih =>
      unfold templateFields
      refine .bind anyFieldReference_committed fun _ => .bind (skip_committed .nowhere _) fun _ =>
        .look fun tokens => ?_
      split
      · exact .pure _
      · exact .bind ih fun _ => .pure _

theorem template_committed : Committed Guessed Tidy template := by
  unfold template
  suffices inner : Committed Guessed BlamesField _ from inner.within fun _ => .template
  refine .bind (.take .nowhere _) fun _ => .look fun tokens => ?_
  split
  · refine .bind (.advance .nowhere) fun _ => .look fun inside => ?_
    split
    · exact .fail .nowhere _ _
    · exact .bind (templateFields_committed _) fun _ => .bind (.take .nowhere _) fun _ => .pure _
  · exact .bind anyFieldReference_committed fun _ => .pure _

section

variable {operands : Scope → Reading (List Operand)}
  (operandsCommitted : ∀ scope, Committed Guessed Tidy (operands scope))

include operandsCommitted

theorem group_committed (scope : Scope) :
    Committed Guessed Tidy (group scope (operands scope)) :=
  tidy_within rfl (.bind (.take .nil _) fun _ => .bind (operandsCommitted scope) fun _ =>
    .bind (.take .nil _) fun _ => .pure _)

theorem fieldValue_committed (field : FieldReference) :
    Committed Guessed Tidy (fieldValue field operands) := by
  unfold fieldValue
  refine .bind (.look fun tokens => .pure _) fun shape => ?_
  split
  · exact .bind (group_committed operandsCommitted .fieldGroup) fun _ => .pure _
  · exact .bind range_committed fun _ => .pure _
  · refine proximityAhead_committed ?found ?notFound
    case found =>
      intro tokens test rest accepted
      exact ⟨_, .pure _, proximity_plain.resumes accepted _⟩
    case notFound =>
      simp only [Bool.false_eq_true, if_false]
      split
      · exact .bind (.takeOneOf .nil _) fun _ => .bind fuzziness_committed fun _ => .pure _
      · exact .bind (.take .nil _) fun _ => .bind slop_committed fun _ => .pure _
      · exact .look fun tokens => .fail .nil _ _

theorem plainTest_committed (scope : Scope) :
    Committed Guessed Tidy (plainTest scope operands) := by
  unfold plainTest
  refine .look fun tokens => ?_
  split
  · exact .bind term_committed fun _ => .pure _
  · exact .bind phrase_committed fun _ => .pure _
  · exact .bind (exactTest_committed scope) fun _ => .pure _
  · exact .bind (synonym_committed scope) fun _ => .pure _
  · exact .bind range_committed fun _ => .pure _
  · exact .bind (group_committed operandsCommitted scope) fun _ => .pure _
  · exact .bind template_committed fun _ => .pure _
  · exact .fail .nil _ _

/-- A field that was found is read again before its value is. -/
theorem fieldQualified_resumes {qualified : Bool} {tokens rest : List Token}
    {field : FieldReference}
    (accepted : (fieldQualifier qualified).run tokens = .ok (field, rest)) :
    ∃ later, Committed Guessed Tidy later ∧
      Resumes (fieldQualified qualified operands) tokens later rest := by
  refine ⟨within .fieldQualified (fieldValue field operands), ?_, ?_⟩
  · exact tidy_within rfl (fieldValue_committed operandsCommitted field)
  · exact ((fieldQualifier_plain qualified).resumes accepted _).within _

theorem test_committed (scope : Scope) : Committed Guessed Tidy (test scope operands) := by
  unfold test
  refine tidy_within rfl (proximityAhead_committed ?found ?notFound)
  case found =>
    intro tokens test rest accepted
    exact ⟨_, .pure _, proximity_plain.resumes accepted _⟩
  case notFound =>
    simp only [Bool.false_eq_true, if_false]
    refine testQualifierForm_committed ?_ (plainTest_committed operandsCommitted scope)
    intro qualified tokens field rest accepted
    exact fieldQualified_resumes operandsCommitted accepted

end

theorem requireOperand_committed (starts : List TokenKind) :
    Committed Guessed Tidy (requireOperand starts) := by
  unfold requireOperand
  refine .look fun tokens => ?_
  split
  · exact .pure _
  · exact .fail .nil _ _

theorem takeLink_committed (link : Link) : Committed Guessed Tidy (takeLink link) := by
  cases link with
  | and => exact .advance .nil
  | or => exact .advance .nil
  | opening => exact .pure _
  | adjacent => exact .pure _

theorem sign_committed : Committed Guessed Tidy sign := by
  unfold sign
  refine .look fun tokens => ?_
  split
  · exact .pure _
  · exact .bind (.advance .nil) fun _ => .pure _

section

variable {scope : Scope} {operand : Link → Reading Operand}
  (operandCommitted : ∀ link, Committed Guessed Tidy (operand link))

include operandCommitted

theorem laterOperands_committed (limit : Nat) :
    Committed Guessed Tidy (laterOperands scope operand limit) := by
  induction limit with
  | zero => exact .pure []
  | succ limit ih =>
      unfold laterOperands
      refine .look fun tokens => ?_
      split
      · exact .pure []
      · refine .bind (takeLink_committed _) fun _ => .bind (tidy_within rfl ?_) fun _ =>
          .bind ih fun _ => .pure _
        split
        · exact .bind (requireOperand_committed _) fun _ => operandCommitted _
        · exact .bind (.pure _) fun _ => operandCommitted _

theorem operands_committed : Committed Guessed Tidy (operands scope operand) := by
  unfold operands
  refine tidy_within rfl (.bind (tidy_within rfl ?_) fun _ =>
    .bind (.look fun tokens => ?_) fun _ => .pure _)
  · exact .bind (requireOperand_committed _) fun _ => operandCommitted _
  · exact laterOperands_committed operandCommitted _

end

theorem operand_committed (levels : Nat) (scope : Scope) (link : Link) :
    Committed Guessed Tidy (operand levels scope link) := by
  induction levels generalizing scope link with
  | zero => exact tidy_within rfl (.fail .nil _ _)
  | succ levels ih =>
      unfold operand
      refine tidy_within rfl (.bind sign_committed fun _ => .bind (test_committed ?_ scope) fun _ =>
        .bind boost_committed fun _ => .pure _)
      intro inner
      exact operands_committed (ih inner)

theorem query_committed : Committed Guessed Tidy query :=
  tidy_within rfl (.bind (operands_committed (operand_committed maxLevels .query)) fun _ =>
    .bind (.atEnd .nil) fun _ => .pure _)

namespace Cmis

theorem test_committed : Committed Guessed Tidy Cmis.test := by
  unfold Cmis.test
  refine tidy_within rfl (.look fun tokens => ?_)
  split
  · exact .bind (.takeOneOf .nil _) fun _ => .pure _
  · split
    · exact .bind (.take .nil _) fun _ => .pure _
    · exact .fail .nil _ _

theorem item_committed (link : Link) : Committed Guessed Tidy (item link) := by
  unfold item
  refine tidy_within rfl (.bind (.look fun tokens => ?_) fun _ => .bind Cmis.test_committed fun _ =>
    .pure _)
  split
  · exact .bind (.advance .nil) fun _ => .pure _
  · exact .pure _

theorem requiredItem_committed (link : Link) :
    Committed Guessed Tidy (within .cmisConjunction (requireItem >>= fun _ => item link)) := by
  unfold requireItem
  refine tidy_within rfl (.bind (.look fun tokens => ?_) fun _ => item_committed link)
  split
  · exact .fail .nil _ _
  · exact .pure _

theorem laterItems_committed (limit : Nat) : Committed Guessed Tidy (laterItems limit) := by
  induction limit with
  | zero => exact .pure []
  | succ limit ih =>
      unfold laterItems
      refine .look fun tokens => ?_
      split
      · exact .pure []
      · exact .bind (takeLink_committed _) fun _ => .bind (requiredItem_committed _) fun _ =>
          .bind ih fun _ => .pure _

theorem query_committed : Committed Guessed Tidy Cmis.query := by
  suffices items : Committed Guessed Tidy items from
    tidy_within rfl (.bind items fun _ => .bind (.atEnd .nil) fun _ => .pure _)
  exact tidy_within rfl (.bind (requiredItem_committed .opening) fun _ =>
    .bind (.look fun tokens => laterItems_committed _) fun _ => .pure _)

end Cmis

end Grammar

theorem readQuery_committed (dialect : Dialect) :
    Reading.Committed Grammar.Guessed Tidy (readQuery dialect) := by
  cases dialect with
  | full => exact Grammar.query_committed
  | cmis => exact Grammar.Cmis.query_committed

end SearchQuery
