import Mathlib.Order.Bounds.Defs
import SearchQuery.Proofs.Accepted
import SearchQuery.Proofs.Restricted.Refusal
set_option autoImplicit false

/-!
# What the restricted language accepts

The loop of the restricted language reads alternatives of items and nothing else, and fails behind
the longest beginning that might have gone on to alternatives. One step of the loop reads an item
and looks at what is behind it; where the step fails, nothing but the beginnings passed so far is
viable.
-/

namespace SearchQuery.Restricted

open Reading Grammar Grammar.Cmis

/-!
## One step
-/

theorem startsItem_iff {token : Token} : StartsItem token ↔ token.kind ∈ itemStarts := by
  simp [StartsItem, itemStarts, TokenKind.isWord]

theorem dividerAhead_iff {tokens : List Token} : dividerAhead tokens = true ↔ Divides tokens := by
  cases tokens with
  | nil =>
      constructor
      · intro ahead
        cases ahead
      · intro divides
        cases divides
  | cons token rest =>
      simp only [dividerAhead, Bool.or_eq_true, Bool.and_eq_true, beq_iff_eq, nextIn_eq_true_iff]
      constructor
      · rintro (symbol | ⟨keyword, next, rest, starts, rfl⟩)
        · exact .symbol symbol
        · exact .keyword keyword (startsItem_iff.mpr starts)
      · intro divides
        cases divides with
        | symbol kind => exact .inl kind
        | keyword kind starts => exact .inr ⟨kind, _, _, startsItem_iff.mp starts, rfl⟩

theorem Sought.IsOf.run_test {sought : Sought} {token : Token} (same : sought.IsOf token)
    (rest : List Token) : Cmis.test.run (token :: rest) = .ok (sought.test, rest) := by
  rw [Cmis.test, run_within_eq_ok_iff, run_look]
  cases same with
  | @word leaf _ same =>
      have ahead : nextIn TokenKind.words (token :: rest) = true := by
        simpa [nextIn] using same.kind_mem
      rw [if_pos ahead]
      simp only [run_bind_eq_ok_iff, run_takeOneOf_eq_ok_iff, run_pure_eq_ok_iff]
      exact ⟨_, _, ⟨token, ⟨same.kind, same.text⟩, rfl⟩, rfl, rfl⟩
  | phrase same =>
      have noWord : nextIn TokenKind.words (token :: rest) ≠ true := by
        simp [nextIn, same.kind_eq, TokenKind.words]
      rw [if_neg noWord, if_pos (by simp [nextIs, same.kind_eq])]
      simp only [run_bind_eq_ok_iff, run_take_eq_ok_iff, run_pure_eq_ok_iff]
      exact ⟨_, _, ⟨token, same, rfl⟩, rfl, rfl⟩

theorem Item.Written.run_item {item : Item} {tokens rest : List Token}
    (written : item.Written tokens rest) (link : Link) :
    (Cmis.item link).run tokens = .ok (item.operand link, rest) := by
  simp only [Cmis.item, run_within_eq_ok_iff, run_bind_eq_ok_iff, run_pure_eq_ok_iff, run_look]
  cases written with
  | @plain sought token rest same apart =>
      have unsigned : nextIs .minus (token :: rest) ≠ true := by
        intro signed
        have minus : token.kind = .minus := by simpa [nextIs] using signed
        rcases same.kind with kind | kind <;> rw [minus] at kind <;> cases kind
      rw [if_neg unsigned]
      exact ⟨.none, _, rfl, _, _, same.run_test rest, rfl, rfl⟩
  | @excluded sought minus token rest kind same =>
      rw [if_pos (by simp [nextIs, kind])]
      exact ⟨.exclude, _, rfl, _, _, same.run_test rest, rfl, rfl⟩

theorem Unsought.run_test {tokens : List Token} (unsought : Unsought tokens) :
    Cmis.test.run tokens =
      .error ⟨.noViableAlternative, TokenKind.words ++ [.phrase], tokens, [.cmisTest]⟩ := by
  have noWord : nextIn TokenKind.words tokens ≠ true := by
    intro ahead
    obtain ⟨token, rest, kind, rfl⟩ := nextIn_eq_true_iff.mp ahead
    have word : token.kind.isWord = true := by simpa [TokenKind.isWord] using kind
    obtain ⟨sought, same⟩ := Sought.exists_isOf (.inl word)
    exact unsought token rest rfl sought same
  have noPhrase : nextIs .phrase tokens ≠ true := by
    intro ahead
    obtain ⟨token, rest, kind, rfl⟩ := nextIs_eq_true_iff.mp ahead
    obtain ⟨sought, same⟩ := Sought.exists_isOf (.inr kind)
    exact unsought token rest rfl sought same
  simp only [Cmis.test, within, run_look, if_neg noWord, if_neg noPhrase, run_fail]

theorem Unsought.run_item {tokens : List Token} (unsought : Unsought tokens)
    (unsigned : nextIs .minus tokens = false) (link : Link) :
    (Cmis.item link).run tokens =
      .error ⟨.noViableAlternative, TokenKind.words ++ [.phrase], tokens,
        [.cmisOperand, .cmisTest]⟩ := by
  simp only [Cmis.item, within, run_bind, run_look, unsigned, Bool.false_eq_true, if_false,
    run_pure, unsought.run_test]

theorem Unsought.run_item_of_minus {minus : Token} {rest : List Token} (unsought : Unsought rest)
    (kind : minus.kind = .minus) (link : Link) :
    (Cmis.item link).run (minus :: rest) =
      .error ⟨.noViableAlternative, TokenKind.words ++ [.phrase], rest,
        [.cmisOperand, .cmisTest]⟩ := by
  have signed : nextIs .minus (minus :: rest) = true := by simp [nextIs, kind]
  simp only [Cmis.item, within, run_bind, run_look, signed, if_true, advance, run_pure,
    unsought.run_test]

/-!
## The loop
-/

/-- What reading alternatives from tokens comes to. -/
inductive Outcome (link : Link) (tokens : List Token) :
    Except Failure (List Operand × List Token) → Prop where
  | accepted {alternatives : List (List Item)} :
      Written alternatives tokens [] → Outcome link tokens (.ok (operandsOf link alternatives, []))
  | rejected {failure : Failure} : Rejected tokens failure → Outcome link tokens (.error failure)

/-- What reading on behind an item comes to. -/
inductive OutcomeBehind : List Token → Except Failure (List Operand × List Token) → Prop where
  | nothing : OutcomeBehind [] (.ok ([], []))
  | onward {link : Link} {tokens next : List Token}
      {outcome : Except Failure (List Operand × List Token)} :
      Onward tokens link next → Outcome link next outcome → OutcomeBehind tokens outcome

theorem OutcomeBehind.outcome {item : Item} {tokens between : List Token}
    {later : Except Failure (List Operand × List Token)} (itemWritten : item.Written tokens between)
    (behind : OutcomeBehind between later) (link : Link) :
    Outcome link tokens (later.map fun read => (item.operand link :: read.1, read.2)) := by
  cases behind with
  | nothing => exact .accepted (.single itemWritten)
  | onward onward outcome =>
      cases outcome with
      | accepted written =>
          obtain ⟨joined, joinedWritten, operands⟩ := onward.join itemWritten written link
          have accepted : Outcome link tokens _ := .accepted joinedWritten
          rwa [operands] at accepted
      | rejected rejected => exact .rejected (onward.rejected itemWritten rejected)

/-- One item, and what is read behind it. -/
def step (link : Link) (later : Reading (List Operand)) : Reading (List Operand) := do
  let next ← within .cmisConjunction do
    requireItem
    Cmis.item link
  let rest ← later
  return next :: rest

theorem run_requireItem {tokens : List Token} (filled : tokens ≠ []) (apart : ¬ Divides tokens) :
    requireItem.run tokens = .ok ((), tokens) := by
  have notAhead : dividerAhead tokens = false := by
    simpa [← dividerAhead_iff] using apart
  have notEmpty : tokens.isEmpty = false := by simpa using filled
  simp only [requireItem, run_look, notEmpty, notAhead, Bool.or_self, Bool.false_eq_true, if_false,
    run_pure]

theorem run_requireItem_of_none {tokens : List Token} (absent : tokens = [] ∨ Divides tokens) :
    requireItem.run tokens = .error ⟨.emptyRequiredRepetition, itemStarts, tokens, []⟩ := by
  have required : (tokens.isEmpty || dividerAhead tokens) = true := by
    rcases absent with rfl | divides
    · rfl
    · rw [dividerAhead_iff.mpr divides, Bool.or_true]
  simp only [requireItem, run_look, required, if_true, run_fail]

theorem step_outcome {tokens : List Token} {later : Reading (List Operand)}
    (behind : ∀ rest, rest.length < tokens.length → OutcomeBehind rest (later.run rest))
    (link : Link) : Outcome link tokens ((step link later).run tokens) := by
  by_cases absent : tokens = [] ∨ Divides tokens
  · have unsigned : nextIs .minus tokens = false := by
      rcases absent with rfl | divides
      · rfl
      · cases divides with
        | symbol kind | keyword kind _ => simp [nextIs, kind]
    have stuck : Stuck tokens := by
      rcases absent with rfl | divides
      · exact .of_nil
      · exact .of_divides divides
    simp only [step, run_bind, within, run_requireItem_of_none absent]
    exact .rejected (.of_stuck stuck unsigned rfl ⟨_, rfl, .empty⟩)
  · obtain ⟨filled, apart⟩ := not_or.mp absent
    rcases item_cases apart with ⟨item, rest, written⟩ | ⟨minus, rest, kind, rfl, unsought⟩ |
      ⟨unsigned, unsought⟩
    · have read := (behind rest written.suffix.2).outcome written link
      simp only [step, run_bind, within, run_requireItem filled apart, written.run_item]
      cases run : later.run rest with
      | ok result => rwa [run] at read
      | error failure => rwa [run] at read
    · simp only [step, run_bind, within, run_requireItem filled apart,
        unsought.run_item_of_minus kind]
      exact .rejected (.of_minus kind unsought rfl ⟨_, rfl, .unviable⟩)
    · simp only [step, run_bind, within, run_requireItem filled apart,
        unsought.run_item unsigned]
      exact .rejected (.of_stuck (.of_unsought unsought unsigned) unsigned rfl ⟨_, rfl, .unviable⟩)

theorem laterItems_outcome (limit : Nat) (tokens : List Token) (enough : tokens.length ≤ limit) :
    OutcomeBehind tokens ((laterItems limit).run tokens) := by
  induction limit generalizing tokens with
  | zero =>
      obtain rfl := List.length_eq_zero_iff.mp (Nat.le_zero.mp enough)
      exact .nothing
  | succ limit ih =>
      have next (rest : List Token) (shorter : rest.length ≤ tokens.length) (link : Link) :
          Outcome link rest ((step link (laterItems limit)).run rest) :=
        step_outcome (fun after remaining => ih after (by omega)) link
      rw [laterItems, run_look]
      by_cases divides : Divides tokens
      · have ahead : Cmis.linkAhead? tokens = some .or := by
          rw [Cmis.linkAhead?, if_pos (dividerAhead_iff.mpr divides)]
        rw [ahead]
        cases divides with
        | symbol kind => exact .onward (.divided (.symbol kind)) (next _ (Nat.le_succ _) .or)
        | keyword kind starts =>
            exact .onward (.divided (.keyword kind starts)) (next _ (Nat.le_succ _) .or)
      · by_cases filled : tokens = []
        · subst filled
          exact .nothing
        · have ahead : Cmis.linkAhead? tokens = some .adjacent := by
            rw [Cmis.linkAhead?, if_neg (by simpa [dividerAhead_iff] using divides),
              if_neg (by simpa using filled)]
          rw [ahead]
          exact .onward (.beside filled divides) (next _ (Nat.le_refl _) .adjacent)

theorem Outcome.within {link : Link} {tokens : List Token} {reading : Reading (List Operand)}
    (outcome : Outcome link tokens (reading.run tokens)) (rule : Rule) :
    Outcome link tokens ((Reading.within rule reading).run tokens) := by
  simp only [Reading.within]
  cases run : reading.run tokens with
  | ok read => rwa [run] at outcome
  | error failure =>
      rw [run] at outcome
      cases outcome with
      | rejected rejected => exact .rejected (rejected.within rule)

/-- Reading a whole query of the restricted language comes to alternatives or to a refusal. -/
theorem query_outcome (tokens : List Token) :
    Outcome .opening tokens (Cmis.query.run tokens) := by
  have items : Outcome .opening tokens (Cmis.items.run tokens) := by
    have stepped : Outcome .opening tokens
        ((step .opening (look fun rest => laterItems rest.length)).run tokens) :=
      step_outcome (fun rest _ => laterItems_outcome rest.length rest (Nat.le_refl _)) .opening
    exact stepped.within .cmisDisjunction
  refine Outcome.within ?_ _
  rw [run_bind]
  cases run : Cmis.items.run tokens with
  | ok read =>
      rw [run] at items
      cases items with
      | accepted written => exact .accepted written
  | error failure => rwa [run] at items

/-- What comes before the tokens that are left may go on to alternatives. -/
def ViablePrefix (tokens front : List Token) : Prop :=
  ∃ rest, tokens = front ++ rest ∧ Viable tokens rest

theorem Viable.exists_prefix {tokens rest : List Token} (viable : Viable tokens rest) :
    ∃ front, ViablePrefix tokens front ∧ front.length = tokens.length - rest.length := by
  obtain ⟨front, rfl⟩ := viable.suffix
  exact ⟨front, ⟨rest, rfl, viable⟩, by simp⟩

theorem Rejected.isGreatest_locate {tokens : List Token} {failure : Failure}
    (refused : Rejected tokens failure) :
    IsGreatest {length | ∃ front, ViablePrefix tokens front ∧ front.length = length}
      (failure.locate tokens).position.index := by
  refine ⟨refused.viable.exists_prefix, ?_⟩
  rintro _ ⟨front, ⟨rest, split, viable⟩, rfl⟩
  have longest := refused.longest rest viable
  simp only [Failure.locate, split, List.length_append]
  omega

theorem Rejected.locate_rule {tokens : List Token} {failure : Failure}
    (refused : Rejected tokens failure) :
    ((failure.locate tokens).fault = .noViableAlternative ∧
        (failure.locate tokens).rule? = some "cmis_test") ∨
      ((failure.locate tokens).fault = .emptyRequiredRepetition ∧
        (failure.locate tokens).rule? = some "cmis_conjunction") := by
  obtain ⟨innermost, last, blames⟩ := refused.blamed
  have named : (failure.locate tokens).rule? = some innermost.name := by
    rw [ParseError.rule?, Failure.locate, List.getLast?_map, last]
    rfl
  rw [named]
  change (failure.cause = _ ∧ _) ∨ (failure.cause = _ ∧ _)
  generalize failure.cause = cause at blames
  cases blames with
  | unviable => exact .inl ⟨rfl, rfl⟩
  | empty => exact .inr ⟨rfl, rfl⟩

/-- A token list has a tree in the restricted language exactly if alternatives are written with all
of it, and then the tree is theirs. Otherwise it is refused where the longest viable prefix ends. -/
theorem parseTokens_alternatives (fieldConjunction : Bool) (tokens : List Token) :
    (∀ tree, parseTokens ⟨.cmis, fieldConjunction⟩ tokens = .ok tree ↔
      ∃ alternatives, Written alternatives tokens [] ∧ tree = queryNode alternatives) ∧
    ∀ error, parseTokens ⟨.cmis, fieldConjunction⟩ tokens = .error error →
      ((error.fault = .noViableAlternative ∧ error.rule? = some "cmis_test") ∨
        (error.fault = .emptyRequiredRepetition ∧ error.rule? = some "cmis_conjunction")) ∧
      IsGreatest {length | ∃ front, ViablePrefix tokens front ∧ front.length = length}
        error.position.index := by
  have outcome := query_outcome tokens
  have parsed : parseTokens ⟨.cmis, fieldConjunction⟩ tokens =
      treeOrError ⟨.cmis, fieldConjunction⟩ tokens ((Cmis.query.run tokens).map Prod.fst) := by
    rw [parseTokens, parseTokensAs, readTokensAs, if_pos rfl, readQuery.eq_def]
    dsimp only [Mode.dialect]
    cases Cmis.query.run tokens <;> rfl
  rw [parsed]
  cases run : Cmis.query.run tokens with
  | ok read =>
      rw [run] at outcome
      cases outcome with
      | @accepted alternatives written =>
          have tree_eq := queryTree_operandsOf fieldConjunction .opening written.filled
          refine ⟨fun tree => ?_, fun error rejected => ?_⟩
          · simp only [Except.map, treeOrError, tree_eq, Except.ok.injEq]
            constructor
            · rintro rfl
              exact ⟨alternatives, written, rfl⟩
            · rintro ⟨others, otherWritten, rfl⟩
              rw [written.unique otherWritten]
          · cases rejected
  | error failure =>
      rw [run] at outcome
      cases outcome with
      | rejected refused =>
          refine ⟨fun tree => ?_, fun error rejected => ?_⟩
          · constructor
            · intro accepted
              cases accepted
            · rintro ⟨alternatives, written, _⟩
              exact absurd written (refused.unwritten alternatives)
          · cases rejected
            exact ⟨refused.locate_rule, refused.isGreatest_locate⟩

/-- A word `OR` that is excluded is no divider, the one before a minus is one, and behind that minus
nothing can be excluded. -/
theorem refused_behind_excluded :
    let tokens : List Token :=
      [⟨.minus, "-", 0, 1⟩, ⟨.or, "OR", 1, 3⟩, ⟨.id, "x", 4, 5⟩, ⟨.or, "OR", 6, 8⟩,
        ⟨.minus, "-", 9, 10⟩, ⟨.star, "*", 10, 11⟩]
    ∃ error, parseTokens ⟨.cmis, true⟩ tokens = .error error ∧
      ((error.fault = .noViableAlternative ∧ error.rule? = some "cmis_test") ∨
        (error.fault = .emptyRequiredRepetition ∧ error.rule? = some "cmis_conjunction")) ∧
      error.position.index = 5 ∧
      IsGreatest {length | ∃ front, ViablePrefix tokens front ∧ front.length = length} 5 := by
  intro tokens
  obtain ⟨error, rejected, index⟩ : ∃ error, parseTokens ⟨.cmis, true⟩ tokens = .error error ∧
      error.position.index = 5 := ⟨_, rfl, rfl⟩
  have refused := (parseTokens_alternatives true tokens).2 error rejected
  rw [index] at refused
  exact ⟨error, rejected, refused.1, index, refused.2⟩

end SearchQuery.Restricted
