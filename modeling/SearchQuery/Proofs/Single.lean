import SearchQuery.Proofs.Tree.Nodes
import SearchQuery.Proofs.Written.Operands
set_option autoImplicit false

/-!
# Queries of a single operand

What is read where a query is no more than one operand without sign and boost: the body of that
operand, read by the rule of tests from all tokens.
-/

namespace SearchQuery

open Reading Grammar

/-- The tree of operands whose only one has a body, and no sign and no boost. -/
def Settings.sole (settings : Settings) (scope : Scope) (body : Node) : Node :=
  let conjunction :=
    Node.branch (.form scope .conjunction) [Node.branch (.form scope .default) [body]]
  if settings.conjoins scope then conjunction
  else Node.branch (.form scope .disjunction) [conjunction]

/-- The operands of a junction, whatever conjunctions they are in. -/
def Node.operandNodes : Node → List Node
  | mk (.form _ .disjunction) alternatives _ => alternatives.flatMap children
  | mk _ operands _ => operands

theorem Arrangement.operandNodes_junction (arrangement : Arrangement) (scope : Scope)
    (items : List (Link × Node)) :
    (arrangement.junction scope items).operandNodes = items.map Prod.snd := by
  rcases arrangement.junction_cases scope items with ⟨_, _, same⟩ | ⟨_, same⟩
  · rw [same]
    rfl
  · rw [same, ← arrangement.flatten_runs items, Node.branch, Node.operandNodes, List.flatMap_map]
    exact (List.flatten_eq_flatMap ..).symm

theorem Operand.linkedNodes_single (arrangement : Scope → Arrangement) (scope : Scope)
    (body : Body) :
    linkedNodes arrangement scope [.mk .opening .none body none] =
      [(.opening, Node.branch (.form scope .default) [body.toNode arrangement scope])] := by
  rw [linkedNodes_cons, Operand.toNode]
  rfl

namespace Settings

variable {settings : Settings}

theorem sole_eq_junction (full : settings.mode.dialect = .full) (scope : Scope) (body : Node) :
    settings.sole scope body =
      (Arrangement.ofSettings settings scope).junction scope
        [(.opening, Node.branch (.form scope .default) [body])] := by
  rw [Arrangement.ofSettings_of_full full, sole]
  cases settings.conjoins scope <;> rfl

theorem operandNodes_sole (settings : Settings) (scope : Scope) (body : Node) :
    (settings.sole scope body).operandNodes = [Node.branch (.form scope .default) [body]] := by
  rw [sole]
  cases settings.conjoins scope <;> rfl

end Settings

theorem Operand.eq_of_toNode_default {arrangement : Scope → Arrangement} {scope : Scope}
    {operand : Operand} {body : Node}
    (same : operand.toNode arrangement scope = Node.branch (.form scope .default) [body]) :
    ∃ held : Body, operand = .mk operand.link .none held none ∧
      held.toNode arrangement scope = body := by
  obtain ⟨link, sign, held, boost⟩ := operand
  rw [Operand.toNode] at same
  obtain ⟨kind, children, _⟩ := Node.mk.inj same
  have signless : sign = .none := by
    cases sign <;> first | rfl | cases kind
  obtain ⟨heldSame, boostSame⟩ := List.cons.inj children
  have boostless : boost = none := by
    cases boost with
    | none => rfl
    | some => cases boostSame
  subst signless boostless
  exact ⟨held, rfl, heldSame⟩

/-- Operands with the tree of a single one are a single one. -/
theorem Operand.eq_of_junction_sole {settings : Settings} {arrangement : Scope → Arrangement}
    {scope : Scope} {operands : List Operand} {body : Node}
    (same : (arrangement scope).junction scope (linkedNodes arrangement scope operands) =
      settings.sole scope body) :
    ∃ link held, operands = [.mk link .none held none] ∧
      held.toNode arrangement scope = body := by
  have nodes := congrArg Node.operandNodes same
  rw [Arrangement.operandNodes_junction, Settings.operandNodes_sole,
    Operand.linkedNodes_eq_map, List.map_map] at nodes
  obtain ⟨operand, rfl, node⟩ := List.map_eq_singleton_iff.mp nodes
  obtain ⟨held, split, heldSame⟩ := Operand.eq_of_toNode_default node
  exact ⟨operand.link, held, congrArg List.singleton split, heldSame⟩

variable {settings : Settings} {tokens : List Token}

/-- A query has the tree of a single operand exactly if a single operand is read. -/
theorem parseTokens_eq_sole_iff (full : settings.mode.dialect = .full) {body : Node} :
    parseTokens settings tokens = .ok (settings.sole .query body) ↔
      ∃ held : Body, readTokens settings.mode tokens = .ok [.mk .opening .none held none] ∧
        held.toNode (Arrangement.ofSettings settings) .query = body := by
  rw [parseTokens_eq_ok_iff]
  constructor
  · rintro ⟨operands, read, same⟩
    obtain ⟨link, held, rfl, heldSame⟩ := Operand.eq_of_junction_sole same
    have written := readTokens_written read
    cases written with
    | operands opens _ _ =>
        rw [Operand.link] at opens
        subst opens
        exact ⟨held, read, heldSame⟩
  · rintro ⟨held, read, rfl⟩
    refine ⟨_, read, ?_⟩
    rw [Settings.sole_eq_junction full, ← Operand.linkedNodes_single]
    rfl

/-- The tree of operands in a scope. -/
def Settings.groupTree (settings : Settings) (scope : Scope) (operands : List Operand) : Node :=
  (Arrangement.ofSettings settings scope).junction scope
    (Operand.linkedNodes (Arrangement.ofSettings settings) scope operands)

theorem Body.toNode_group (settings : Settings) (scope : Scope) (operands : List Operand) :
    Body.toNode (Arrangement.ofSettings settings) scope (.group operands) =
      settings.groupTree scope operands := by
  rw [Body.toNode, Settings.groupTree]

theorem Body.toNode_fieldGroup (settings : Settings) (scope : Scope) (field : FieldReference)
    (operands : List Operand) :
    Body.toNode (Arrangement.ofSettings settings) scope (.fieldGroup field operands) =
      Node.branch .fieldGroup [field.toNode, settings.groupTree .fieldGroup operands] := by
  rw [Body.toNode, Settings.groupTree]

/-- The levels that are left inside an operand of a query. -/
def Grammar.innerLevels : Nat := 63

/-- The body of an operand of a query. -/
def Grammar.bodyOfQuery : Reading Body :=
  test .query fun inner => operands inner (operand innerLevels inner)

theorem Grammar.run_sign_of_unsigned (unsigned : signAhead tokens = .none) :
    sign.run tokens = .ok (.none, tokens) := by
  rw [sign, run_look, unsigned]
  rfl

/-- Operands in parentheses, inside an operand of a query. -/
def Grammar.innerGroup (scope : Scope) : Reading (List Operand) :=
  group scope (operands scope (operand innerLevels scope))

/-- An operand without sign and boost is its body. -/
theorem Grammar.run_operand_of_unsigned (unsigned : signAhead tokens = .none) (link : Link)
    {body : Body} {rest : List Token} (boostless : nextIs .caret rest = false) :
    (operand maxLevels .query link).run tokens = .ok (.mk link .none body none, rest) ↔
      bodyOfQuery.run tokens = .ok (body, rest) := by
  change (operand (innerLevels + 1) .query link).run tokens = _ ↔ _
  simp only [operand, run_within_eq_ok_iff, run_bind_eq_ok_iff, run_pure_eq_ok_iff,
    run_sign_of_unsigned unsigned]
  constructor
  · rintro ⟨_, _, signless, held, between, bodyRead, boost, _, boostRead, same, rfl⟩
    cases signless
    cases same
    obtain ⟨taken, rfl, written⟩ := boost_written boostRead
    cases written
    exact bodyRead
  · intro bodyRead
    exact ⟨.none, tokens, rfl, body, rest, bodyRead, none, rest,
      SuffixWritten.run_boost .absent boostless, rfl, rfl⟩

/-- A single operand is read exactly if its body is read as a test, up to the end. -/
theorem readTokens_eq_single_iff {mode : Mode} (full : mode.dialect = .full)
    (unsigned : signAhead tokens = .none) (begins : nextIn (operandStarts .query) tokens = true)
    {body : Body} :
    readTokens mode tokens = .ok [.mk .opening .none body none] ↔
      bodyOfQuery.run tokens = .ok (body, []) := by
  have read : readTokens mode tokens = .ok [.mk .opening .none body none] ↔
      query.run tokens = .ok ([.mk .opening .none body none], []) := by
    rw [readTokens, readTokensAs, if_pos rfl, full, readQuery]
    constructor
    · intro accepted
      split at accepted
      · next operands rest run =>
          cases accepted
          rw [run, (query_written run).1]
      · cases accepted
    · intro accepted
      rw [accepted]
  rw [read, ← run_operand_of_unsigned unsigned .opening rfl]
  simp only [query, operands, run_within_eq_ok_iff, run_bind_eq_ok_iff, run_pure_eq_ok_iff,
    run_atEnd_eq_ok_iff, run_look]
  constructor
  · rintro ⟨_, _, ⟨first, _, ⟨_, _, required, firstRead⟩, later, _, laterRead, rfl, rfl⟩, _, _,
      ⟨rfl, rfl⟩, same, _⟩
    obtain rfl := requireOperand_accepted required
    obtain ⟨rfl, rfl⟩ := List.cons.inj same
    obtain ⟨taken, rfl, written⟩ := laterOperands_written operand_written laterRead
    cases written
    exact firstRead
  · intro firstRead
    refine ⟨_, _, ⟨_, _, ⟨(), tokens, ?_, firstRead⟩, [], [], rfl, rfl, rfl⟩, (), [], ⟨rfl, rfl⟩,
      rfl, rfl⟩
    rw [requireOperand, run_look, if_pos begins]
    rfl

/-!
## Operands in parentheses
-/

/-- A query that is operands in parentheses has the tree of a single operand exactly if the
parentheses end where the query does. -/
theorem parseTokens_group_iff (full : settings.mode.dialect = .full) {opening : Token}
    (tokens : List Token) (opens : opening.kind = .lparen) (tree : Node) :
    parseTokens settings (opening :: tokens) = .ok (settings.sole .query tree) ↔
      ∃ inner, (innerGroup .query).run (opening :: tokens) = .ok (inner, []) ∧
        settings.groupTree .query inner = tree := by
  have begins : nextIn (operandStarts .query) (opening :: tokens) = true := by
    simp [nextIn, opens, operandStarts, testStarts]
  have unsigned : signAhead (opening :: tokens) = .none := by
    simp [signAhead, opens]
  simp only [parseTokens_eq_sole_iff full, readTokens_eq_single_iff full unsigned begins,
    bodyOfQuery, run_test_of_group_iff opens]
  constructor
  · rintro ⟨_, ⟨inner, read, rfl⟩, rfl⟩
    exact ⟨inner, read, (Body.toNode_group settings .query inner).symm⟩
  · rintro ⟨inner, read, rfl⟩
    exact ⟨_, ⟨inner, read, rfl⟩, Body.toNode_group settings .query inner⟩

variable {field : FieldReference} {qualifier : List Token}

theorem FieldReference.Qualifying.unsigned (qualifying : field.Qualifying qualifier)
    (rest : List Token) : signAhead (qualifier ++ rest) = .none := by
  obtain ⟨first, second, others, rfl, kind, _⟩ := qualifying.exists_cons
  simp only [List.mem_cons, List.not_mem_nil, or_false] at kind
  rcases kind with kind | kind | kind <;> simp [signAhead, kind]

/-- A query that begins with a field has the tree of a single field group exactly if the rest is
read as the value of the field. -/
theorem parseTokens_qualified_iff (full : settings.mode.dialect = .full)
    (qualifying : field.Qualifying qualifier) (unnamed : nameAhead tokens = false) {tree : Node} :
    parseTokens settings (qualifier ++ tokens) = .ok (settings.sole .query tree) ↔
      ∃ body : Body, (fieldValue field fun inner => operands inner (operand innerLevels inner)).run
          tokens = .ok (body, []) ∧
        body.toNode (Arrangement.ofSettings settings) .query = tree := by
  have begins : nextIn (operandStarts .query) (qualifier ++ tokens) = true := by
    obtain ⟨first, others, rfl, starts, _⟩ := qualifying.begins
    exact nextIn_eq_true_iff.mpr ⟨first, _, List.mem_append_right _ starts, rfl⟩
  simp only [parseTokens_eq_sole_iff full,
    readTokens_eq_single_iff full (qualifying.unsigned tokens) begins, bodyOfQuery,
    run_test_of_qualified_iff qualifying unnamed]

/-- The same with a field in front, where the parentheses hold the operands of a field group. -/
theorem parseTokens_fieldGroup_iff (full : settings.mode.dialect = .full)
    (qualifying : field.Qualifying qualifier) {opening : Token} (tokens : List Token)
    (opens : opening.kind = .lparen) (body : Node) :
    parseTokens settings (qualifier ++ opening :: tokens) =
        .ok (settings.sole .query (.branch .fieldGroup [field.toNode, body])) ↔
      ∃ inner, (innerGroup .fieldGroup).run (opening :: tokens) = .ok (inner, []) ∧
        settings.groupTree .fieldGroup inner = body := by
  simp only [parseTokens_qualified_iff full qualifying (nameAhead_of_group opens),
    run_fieldValue_of_group_iff opens]
  constructor
  · rintro ⟨_, ⟨inner, read, rfl⟩, same⟩
    rw [Body.toNode_fieldGroup] at same
    obtain ⟨_, children, _⟩ := Node.mk.inj same
    exact ⟨inner, read, (List.cons.inj (List.cons.inj children).2).1⟩
  · rintro ⟨inner, read, rfl⟩
    exact ⟨_, ⟨inner, read, rfl⟩, Body.toNode_fieldGroup settings .query field inner⟩

end SearchQuery
