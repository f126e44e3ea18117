import SearchQuery.Proofs.Restricted.Acceptance
import SearchQuery.Proofs.Written.Operands
set_option autoImplicit false

/-!
# The restricted language within the full one

The keywords `AND` and `NOT` are words in the restricted language, while the full one takes them for
an operator and a sign. Away from them, whatever the restricted language accepts is accepted by the
full one as the same operands with the same links, and conjoining adjacent operands gives the same
conjunctions. The keyword `OR` divides in one language where it divides in the other: behind an item
there is the end, an item or a divider, and the symbol starts an operand in neither.
-/

namespace SearchQuery.Restricted

open Reading Grammar

/-!
## Items as operands
-/

/-- What may be behind an item of alternatives. -/
def Behind (rest : List Token) : Prop :=
  ∀ token after, rest = token :: after → StartsItem token ∨ token.kind = .barBar

theorem Behind.nil : Behind [] := by
  intro token after split
  cases split

theorem Item.Written.startsItem {item : Item} {tokens rest : List Token}
    (written : item.Written tokens rest) :
    ∃ token after, tokens = token :: after ∧ StartsItem token := by
  cases written with
  | plain same _ =>
      refine ⟨_, _, rfl, ?_⟩
      rcases same.kind with word | phrase
      · exact .inl word
      · exact .inr (.inl phrase)
  | excluded kind _ => exact ⟨_, _, rfl, .inr (.inr kind)⟩

theorem Written.behind {alternatives : List (List Item)} {tokens rest : List Token}
    (written : Written alternatives tokens rest) : Behind tokens := by
  have startsItem : ∃ token after, tokens = token :: after ∧ StartsItem token := by
    cases written with
    | single itemWritten | beside itemWritten _ | divided itemWritten _ _ =>
        exact itemWritten.startsItem
  obtain ⟨first, others, rfl, starts⟩ := startsItem
  intro token after split
  cases split
  exact .inl starts

theorem Divides.behind {tokens : List Token} (divides : Divides tokens) : Behind tokens := by
  intro token after split
  subst split
  rcases divides.kind with symbol | keyword
  · exact .inr symbol
  · refine .inl (.inl ?_)
    rw [keyword]
    rfl

theorem Behind.nextIs_eq_false {rest : List Token} (behind : Behind rest) {kind : TokenKind}
    (other : kind ∉ TokenKind.barBar :: Cmis.itemStarts) : nextIs kind rest = false := by
  cases rest with
  | nil => rfl
  | cons token after =>
      have member : token.kind ∈ TokenKind.barBar :: Cmis.itemStarts := by
        rcases behind token after rfl with starts | symbol
        · exact List.mem_cons_of_mem _ (startsItem_iff.mp starts)
        · exact symbol ▸ List.mem_cons_self
      exact Grammar.nextIs_eq_false kind member other after

theorem Behind.settled {rest : List Token} (behind : Behind rest) : Settled rest := by
  cases rest with
  | nil => rfl
  | cons token after =>
      rcases behind token after rfl with starts | symbol
      · exact nextIn_eq_false _ (startsItem_iff.mp starts) (by decide) _
      · simp [Settled, nextIn, symbol]

theorem Sought.IsOf.test_written {sought : Sought} {token : Token} (same : sought.IsOf token) :
    sought.test.Written .query [token] := by
  cases same with
  | word same => exact .term .absent ⟨same.kind, same.text⟩ .absent
  | phrase same => exact .phrase .absent same .absent

theorem Sought.IsOf.beginsWithNot_eq_false {sought : Sought} {token : Token}
    (same : sought.IsOf token) (other : token.kind ≠ .not) :
    (Body.test sought.test).beginsWithNot = false := by
  cases same with
  | word same =>
      simp only [Sought.test, Body.beginsWithNot, Test.beginsWithNot, beq_eq_false_iff_ne]
      rwa [same.kind]
  | phrase same => rfl

/-- An item is an operand of the full language, unless the word `NOT` begins it. -/
theorem Item.Written.run_operand {item : Item} {tokens rest : List Token}
    (written : item.Written tokens rest) (noNot : ∀ token ∈ tokens, token.kind ≠ .not)
    (behind : Behind rest) (levels : Nat) (link : Link) :
    (Grammar.operand (levels + 1) .query link).run tokens = .ok (item.operand link, rest) := by
  have noCaret : nextIs .caret rest = false := behind.nextIs_eq_false (by decide)
  have back {sought : Sought} {token : Token} (same : sought.IsOf token) :
      Part.ReadBack levels .query [token] (.body (.test sought.test)) := by
    intro after settled
    exact same.test_written.run_test settled
  cases written with
  | plain same _ =>
      apply Part.ReadBack.operand .absent (.test same.test_written) .absent _ (back same)
        behind.settled noCaret
      intro _
      exact same.beginsWithNot_eq_false (noNot _ List.mem_cons_self)
  | excluded minus same =>
      apply Part.ReadBack.operand (.present _) (.test same.test_written) .absent _ (back same)
        behind.settled noCaret
      · simp [Sign.kinds, minus]
      · intro unsigned
        cases unsigned

/-!
## Links
-/

theorem StartsItem.mem_operandStarts {token : Token} (starts : StartsItem token) :
    token.kind ∈ operandStarts .query := by
  have subset : ∀ kind ∈ Cmis.itemStarts, kind ∈ operandStarts .query := by decide
  exact subset _ (startsItem_iff.mp starts)

theorem Item.Written.nextIn_operandStarts {item : Item} {tokens rest : List Token}
    (written : item.Written tokens rest) : nextIn (operandStarts .query) tokens = true := by
  obtain ⟨token, after, rfl, starts⟩ := written.startsItem
  exact nextIn_eq_true_iff.mpr ⟨token, after, starts.mem_operandStarts, rfl⟩

theorem Divides.linkAhead?_eq {tokens : List Token} (divides : Divides tokens) :
    Grammar.linkAhead? .query tokens = some .or := by
  cases divides with
  | symbol kind => simp [Grammar.linkAhead?, kind]
  | @keyword token next rest kind starts =>
      have follows : nextIn (operandStarts .query) (next :: rest) = true :=
        nextIn_eq_true_iff.mpr ⟨next, rest, starts.mem_operandStarts, rfl⟩
      simp [Grammar.linkAhead?, kind, follows]

/-- An item that no divider sets apart is adjacent to the one before it. The word `OR` is one only
at the end or before the symbol, and there it is no operator of the full language either. -/
theorem Item.Written.linkAhead?_eq {item : Item} {tokens rest : List Token}
    (written : item.Written tokens rest) (noAnd : ∀ token ∈ tokens, token.kind ≠ .and)
    (behind : Behind rest) : Grammar.linkAhead? .query tokens = some .adjacent := by
  have apart := written.not_divides
  obtain ⟨token, after, rfl, starts⟩ := written.startsItem
  have other := noAnd token List.mem_cons_self
  have symbols : token.kind ≠ .ampAmp ∧ token.kind ≠ .barBar := by
    have absent : ∀ kind ∈ Cmis.itemStarts, kind ≠ .ampAmp ∧ kind ≠ .barBar := by decide
    exact absent _ (startsItem_iff.mp starts)
  have keyword : ¬ (token.kind = .or ∧ nextIn (operandStarts .query) after = true) := by
    rintro ⟨kind, follows⟩
    obtain ⟨next, later, member, rfl⟩ := nextIn_eq_true_iff.mp follows
    cases written with
    | plain _ _ =>
        rcases behind next later rfl with nextStarts | symbol
        · exact apart (.keyword kind nextStarts)
        · rw [symbol] at member
          exact absurd member (by decide)
    | excluded minus _ =>
        rw [kind] at minus
        cases minus
  simp only [Grammar.linkAhead?, symbols, other, keyword, starts.mem_operandStarts, false_and,
    if_false, if_true]

/-!
## Alternatives as operands
-/

/-- The full language reads the first item of alternatives and goes on to all the others. -/
theorem Written.run_operands {alternatives : List (List Item)} {tokens rest : List Token}
    (written : Written alternatives tokens rest) (all : rest = [])
    (noAnd : ∀ token ∈ tokens, token.kind ≠ .and) (noNot : ∀ token ∈ tokens, token.kind ≠ .not)
    (levels : Nat) (link : Link) :
    ∃ first between later, operandsOf link alternatives = first :: later ∧
      between.length < tokens.length ∧
      (Grammar.operand (levels + 1) .query link).run tokens = .ok (first, between) ∧
      ∀ limit, between.length ≤ limit →
        (laterOperands .query (Grammar.operand (levels + 1) .query) limit).run between =
          .ok (later, []) := by
  induction written generalizing link with
  | @single item tokens rest itemWritten =>
      subst all
      refine ⟨item.operand link, [], [], rfl, itemWritten.suffix.2,
        itemWritten.run_operand noNot .nil levels link, fun limit _ => ?_⟩
      cases limit <;> rfl
  | @beside item items others tokens between rest itemWritten laterWritten ih =>
      have inside := itemWritten.suffix.1.subset
      obtain ⟨first, after, later, operands, shorter, firstRead, laterRead⟩ :=
        ih all (fun token member => noAnd token (inside member))
          (fun token member => noNot token (inside member)) .adjacent
      have ahead : Grammar.linkAhead? .query between = some .adjacent ∧
          nextIn (operandStarts .query) between = true := by
        have noAndBehind : ∀ token ∈ between, token.kind ≠ .and :=
          fun token member => noAnd token (inside member)
        cases laterWritten with
        | single next =>
            exact ⟨next.linkAhead?_eq noAndBehind (all ▸ .nil), next.nextIn_operandStarts⟩
        | beside next written =>
            exact ⟨next.linkAhead?_eq noAndBehind written.behind, next.nextIn_operandStarts⟩
        | divided next divides _ =>
            exact ⟨next.linkAhead?_eq noAndBehind divides.behind, next.nextIn_operandStarts⟩
      refine ⟨item.operand link, between, first :: later, congrArg _ operands,
        itemWritten.suffix.2, itemWritten.run_operand noNot laterWritten.behind levels link,
        fun limit enough => ?_⟩
      obtain ⟨limit, rfl⟩ := Nat.exists_eq_add_of_lt (Nat.lt_of_lt_of_le shorter enough)
      exact run_laterOperands_of_link ahead.1 rfl ahead.2 firstRead (laterRead _ (by omega))
  | @divided item others divider tokens between rest itemWritten divides laterWritten ih =>
      have inside := itemWritten.suffix.1.subset
      have deeper : ∀ token ∈ between, token ∈ tokens :=
        fun token member => inside (List.mem_cons_of_mem _ member)
      obtain ⟨first, after, later, operands, shorter, firstRead, laterRead⟩ :=
        ih all (fun token member => noAnd token (deeper token member))
          (fun token member => noNot token (deeper token member)) .or
      have starts : nextIn (operandStarts .query) between = true := by
        cases laterWritten with
        | single next | beside next _ | divided next _ _ => exact next.nextIn_operandStarts
      refine ⟨item.operand link, divider :: between, first :: later, congrArg _ operands,
        itemWritten.suffix.2, itemWritten.run_operand noNot divides.behind levels link,
        fun limit enough => ?_⟩
      rw [List.length_cons] at enough
      obtain ⟨limit, rfl⟩ := Nat.exists_eq_add_of_lt enough
      exact run_laterOperands_of_link divides.linkAhead?_eq rfl starts firstRead
        (laterRead _ (by omega))

theorem Written.run_query {alternatives : List (List Item)} {tokens : List Token}
    (written : Written alternatives tokens []) (noAnd : ∀ token ∈ tokens, token.kind ≠ .and)
    (noNot : ∀ token ∈ tokens, token.kind ≠ .not) :
    Grammar.query.run tokens = .ok (operandsOf .opening alternatives, []) := by
  obtain ⟨first, between, later, operands, _, firstRead, laterRead⟩ :=
    written.run_operands rfl noAnd noNot (maxLevels - 1) .opening
  have starts : nextIn (operandStarts .query) tokens = true := by
    cases written with
    | single next | beside next _ | divided next _ _ => exact next.nextIn_operandStarts
  rw [operands]
  simp only [Grammar.query, Grammar.operands, run_within_eq_ok_iff, run_bind_eq_ok_iff,
    run_pure_eq_ok_iff, run_atEnd_eq_ok_iff, run_look]
  exact ⟨first :: later, [],
    ⟨first, between, ⟨(), tokens, run_requireOperand_of_next starts, firstRead⟩, later, [],
      laterRead _ (Nat.le_refl _), rfl, rfl⟩, (), [], ⟨rfl, rfl⟩, rfl, rfl⟩

/-!
## Trees
-/

/-- Conjoining adjacent operands gives the alternatives, and a single one stands for itself. -/
theorem conjoined_operandsOf (fieldConjunction : Bool) {first : List Item}
    {others : List (List Item)} (filled : ∀ items ∈ first :: others, items ≠ []) :
    queryTree ⟨.defaultConjunction, fieldConjunction⟩ (operandsOf .opening (first :: others)) =
      if others.isEmpty then Node.branch (.form .query .conjunction) (first.map Item.toNode)
      else queryNode (first :: others) := by
  have runs : Arrangement.conjoining.runs ((linked .opening (first :: others)).map
      fun item => (item.1, item.2.toNode)) = (first :: others).map (List.map Item.toNode) := by
    have same : ∀ link, Arrangement.conjoining.breaksAt link =
        Arrangement.alternatives.breaksAt link := by
      intro link
      cases link <;> rfl
    rw [Arrangement.runs_map, Arrangement.runs_congr same, runs_linked .opening filled]
  change Arrangement.conjoining.junction .query _ = _
  rw [linkedNodes_operandsOf, Arrangement.junction, runs, List.map_map]
  cases others <;> rfl

/-- A query of the restricted language in which neither `AND` nor `NOT` occurs is one of the full
language that conjoins adjacent operands. Its tree is the same, except that a single alternative has
no disjunction around it. -/
theorem parseTokens_of_restricted (restricted full : Bool) {tokens : List Token} {tree : Node}
    (noAnd : ∀ token ∈ tokens, token.kind ≠ .and) (noNot : ∀ token ∈ tokens, token.kind ≠ .not)
    (accepted : parseTokens ⟨.cmis, restricted⟩ tokens = .ok tree) :
    ∃ first others, tree = Node.branch (.form .query .disjunction) (first :: others) ∧
      parseTokens ⟨.defaultConjunction, full⟩ tokens =
        .ok (if others.isEmpty then first else tree) := by
  obtain ⟨operands, read, rfl⟩ := parseTokens_eq_ok_iff.mp accepted
  obtain ⟨rest, run⟩ := readTokens_eq_ok_iff.mp read
  have outcome := query_outcome tokens
  change Cmis.query.run tokens = _ at run
  rw [run] at outcome
  cases outcome with
  | @accepted alternatives written =>
      have filled := written.filled
      have fullRead : readTokens .defaultConjunction tokens =
          .ok (operandsOf .opening alternatives) :=
        readTokens_eq_ok_iff.mpr ⟨[], written.run_query noAnd noNot⟩
      cases alternatives with
      | nil => cases written
      | cons items others =>
          refine ⟨_, _, queryTree_operandsOf restricted .opening filled, ?_⟩
          rw [parseTokens_eq_ok_iff]
          refine ⟨_, fullRead, ?_⟩
          rw [conjoined_operandsOf full filled, queryTree_operandsOf restricted .opening filled]
          cases others <;> rfl

/-- Where `OR` stands at the end or is excluded it is a word, and between two items it divides. -/
theorem parseTokens_of_divided_words :
    let tokens : List Token :=
      [⟨.minus, "-", 0, 1⟩, ⟨.or, "or", 1, 3⟩, ⟨.phrase, "\"b\"", 4, 7⟩, ⟨.or, "OR", 8, 10⟩,
        ⟨.word, "é", 11, 13⟩, ⟨.or, "OR", 14, 16⟩]
    ∃ tree, parseTokens ⟨.cmis, true⟩ tokens = .ok tree ∧
      ∃ first others, tree = Node.branch (.form .query .disjunction) (first :: others) ∧
        others.length = 1 ∧
        parseTokens ⟨.defaultConjunction, false⟩ tokens =
          .ok (if others.isEmpty then first else tree) := by
  intro tokens
  obtain ⟨tree, accepted, two⟩ : ∃ tree, parseTokens ⟨.cmis, true⟩ tokens = .ok tree ∧
      tree.children.length = 2 := ⟨_, rfl, rfl⟩
  obtain ⟨first, others, shape, parsed⟩ :=
    parseTokens_of_restricted true false (by decide) (by decide) accepted
  refine ⟨tree, accepted, first, others, shape, ?_, parsed⟩
  rw [shape] at two
  exact Nat.succ.inj two

end SearchQuery.Restricted
