import SearchQuery.Proofs.Single.FieldSpan
import SearchQuery.Proofs.Spelling
set_option autoImplicit false

/-!
# How deep trees nest

The levels of the grammar count the operands that stand inside each other, with one exception. A
range or a proximity after a field is read as a test, and the operand that the field group makes of
it is not counted. A tree can therefore nest one operand deeper than the grammar has levels, and
where it does so, such a field group stands inside as many operands as there are levels.
-/

namespace SearchQuery

open Reading Grammar

/-- What a label adds to the nesting of the ways that lead through it. -/
def NodeKind.ownNesting : NodeKind → Nat
  | form _ role => if role.isSigned then 1 else 0
  | _ => 0

namespace Node

theorem nesting_branch (kind : NodeKind) (children : List Node) :
    (branch kind children).nesting = nestingAll children + kind.ownNesting := by
  cases kind with
  | form scope role =>
      rw [branch, nesting, NodeKind.ownNesting]
      cases role.isSigned <;> rfl
  | _ =>
      rw [branch, nesting]
      · rfl
      · simp

theorem nestingAll_le_iff {nodes : List Node} {bound : Nat} :
    nestingAll nodes ≤ bound ↔ ∀ node ∈ nodes, node.nesting ≤ bound := by
  induction nodes with
  | nil => simp [nestingAll]
  | cons node rest ih => rw [nestingAll, Nat.max_le, ih, List.forall_mem_cons]

theorem exists_of_lt_nestingAll {nodes : List Node} {bound : Nat}
    (deep : bound < nestingAll nodes) : ∃ node ∈ nodes, bound < node.nesting := by
  induction nodes with
  | nil => cases deep
  | cons node rest ih =>
      rw [nestingAll] at deep
      by_cases here : bound < node.nesting
      · exact ⟨node, List.mem_cons_self, here⟩
      · obtain ⟨other, member, deeper⟩ := ih (by omega)
        exact ⟨other, List.mem_cons_of_mem _ member, deeper⟩

/-- A node stands in a tree, with so many operands around it. -/
inductive StandsInside (node : Node) : Nat → Node → Prop where
  | here : StandsInside node 0 node
  | child {kind : NodeKind} {children : List Node} {child : Node} {operands : Nat} :
      child ∈ children → StandsInside node operands child →
      StandsInside node (operands + kind.ownNesting) (branch kind children)

/-- A way through a node is as long as the way to it and a way from there. -/
theorem StandsInside.add_nesting_le {node root : Node} {operands : Nat}
    (stands : node.StandsInside operands root) : operands + node.nesting ≤ root.nesting := by
  induction stands with
  | here => omega
  | child member _ ih =>
      rw [nesting_branch]
      have below := nesting_le_of_mem member
      omega

/-- A node as it stands in a tree where the grammar has so many levels left. It nests one operand
deeper than that only around a single test in a field. -/
structure NestedIn (settings : Settings) (levels : Nat) (node : Node) : Prop where
  nesting_le : node.nesting ≤ levels + 1
  spans : levels < node.nesting → ∃ (field : FieldReference) (test : Test) (span : List Token),
    test.SpanWritten span ∧ (settings.soleInField field test).StandsInside levels node

namespace NestedIn

variable {settings : Settings} {levels : Nat}

theorem of_nesting_le {node : Node} (shallow : node.nesting ≤ levels) :
    node.NestedIn settings levels :=
  ⟨Nat.le_succ_of_le shallow, fun deep => absurd shallow (Nat.not_le.mpr deep)⟩

/-- An operand has one level more than what it is made of, and any other node has the same. -/
theorem branch {kind : NodeKind} {children : List Node}
    (below : ∀ child ∈ children, child.NestedIn settings levels) :
    (Node.branch kind children).NestedIn settings (levels + kind.ownNesting) := by
  have bound : nestingAll children ≤ levels + 1 :=
    nestingAll_le_iff.mpr fun child member => (below child member).nesting_le
  constructor
  · rw [nesting_branch]
    omega
  · intro deep
    rw [nesting_branch, Nat.add_lt_add_iff_right] at deep
    obtain ⟨child, member, deeper⟩ := exists_of_lt_nestingAll deep
    obtain ⟨field, test, span, written, stands⟩ := (below child member).spans deeper
    exact ⟨field, test, span, written, .child member stands⟩

theorem unsigned {kind : NodeKind} {children : List Node} (uncounted : kind.ownNesting = 0)
    (below : ∀ child ∈ children, child.NestedIn settings levels) :
    (Node.branch kind children).NestedIn settings levels := by
  have nested : (Node.branch kind children).NestedIn settings (levels + kind.ownNesting) :=
    branch below
  rwa [uncounted] at nested

theorem junction {scope : Scope} {items : List (Link × Node)} (arrangement : Arrangement)
    (operands : ∀ node ∈ items.map Prod.snd, node.NestedIn settings levels) :
    (arrangement.junction scope items).NestedIn settings levels := by
  apply arrangement.junction_of operands
  · intro run within
    exact unsigned rfl within
  · intro alternatives within
    exact unsigned rfl within

end NestedIn

end Node

/-!
## Tests hold no operands
-/

theorem Node.nesting_eq_zero {kind : NodeKind} {children : List Node}
    (uncounted : kind.ownNesting = 0) (below : ∀ child ∈ children, child.nesting = 0) :
    (branch kind children).nesting = 0 := by
  have none : nestingAll children ≤ 0 :=
    nestingAll_le_iff.mpr fun child member => Nat.le_zero.mpr (below child member)
  rw [nesting_branch, uncounted]
  omega

theorem Leaf.nesting_toNode {kinds : List TokenKind} (leaf : Leaf kinds) :
    leaf.toNode.nesting = 0 := rfl

theorem FieldReference.nesting_toNode (field : FieldReference) : field.toNode.nesting = 0 := by
  obtain ⟨qualifier, name⟩ := field
  cases qualifier with
  | none => rfl
  | some qualifier => cases qualifier <;> rfl

theorem Closure.nesting_toNode (closure : Closure) : closure.toNode.nesting = 0 := by
  cases closure <;> rfl

namespace Test

theorem nesting_qualifiers {kinds : List TokenKind} (field : Option FieldReference)
    (number : Option (Leaf kinds)) : ∀ child ∈ qualifiers field number, child.nesting = 0 := by
  have fuzzy (number : Leaf kinds) : (Node.branch .fuzzy [number.toNode]).nesting = 0 := rfl
  cases field <;> cases number <;> simp [qualifiers, FieldReference.nesting_toNode, fuzzy]

theorem nesting_stepNodes (step : Option WholeNumber × PlainWord) :
    ∀ child ∈ stepNodes step, child.nesting = 0 := by
  obtain ⟨distance, word⟩ := step
  have distanceFlat : (Node.branch .distance (distance.toList.map Leaf.toNode)).nesting = 0 := by
    cases distance <;> rfl
  simp [stepNodes, distanceFlat, word.nesting_toNode]

theorem nesting_toNode (test : Test) (scope : Scope) : (test.toNode scope).nesting = 0 := by
  cases test with
  | term word field number | exactTerm word field number | synonym word field number
  | phrase word field number | exactPhrase word field number =>
      exact Node.nesting_eq_zero rfl
        (List.forall_mem_cons.mpr ⟨word.nesting_toNode, nesting_qualifiers field number⟩)
  | range lower low high upper =>
      apply Node.nesting_eq_zero rfl
      simp [Closure.nesting_toNode, Leaf.nesting_toNode]
  | proximity first steps =>
      apply Node.nesting_eq_zero rfl
      refine List.forall_mem_cons.mpr ⟨first.nesting_toNode, ?_⟩
      intro child member
      obtain ⟨step, _, childOf⟩ := List.mem_flatMap.mp member
      exact nesting_stepNodes step child childOf
  | template fields =>
      apply Node.nesting_eq_zero rfl
      simp [FieldReference.nesting_toNode]

end Test

/-!
## The levels of parts
-/

/-- A part that a grammar with so many levels can read. The operand that a range or a proximity
makes after a field takes none of them. -/
inductive Part.Nests : Nat → Part → Prop where
  | operand {levels : Nat} {link : Link} {sign : Sign} {body : Body} {boost : Option Number} :
      Nests levels (.body body) → Nests (levels + 1) (.operand (.mk link sign body boost))
  | test {levels : Nat} {test : Test} : Nests levels (.body (.test test))
  | group {levels : Nat} {operands : List Operand} :
      Nests levels (.operands operands) → Nests levels (.body (.group operands))
  | fieldGroup {levels : Nat} {field : FieldReference} {operands : List Operand} :
      Nests levels (.operands operands) → Nests levels (.body (.fieldGroup field operands))
  | fieldSpan {levels : Nat} {field : FieldReference} {test : Test} {span : List Token} :
      test.SpanWritten span → Nests levels (.body (.fieldGroup field [.ofTest test]))
  | operands {levels : Nat} {operands : List Operand} :
      (∀ single ∈ operands, Nests levels (.operand single)) → Nests levels (.operands operands)

/-- Every value that a reading yields has a property. -/
def Reading.Ensures {α : Type} (reading : Reading α) (property : α → Prop) : Prop :=
  ∀ ⦃tokens rest : List Token⦄ ⦃value : α⦄, reading.run tokens = .ok (value, rest) → property value

namespace Grammar

variable {levels : Nat} {scope : Scope}

theorem group_nests {operands : Reading (List Operand)}
    (inner : operands.Ensures fun read => Part.Nests levels (.operands read)) :
    (group scope operands).Ensures fun read => Part.Nests levels (.operands read) := by
  intro tokens rest read accepted
  simp only [group, run_within_eq_ok_iff, run_bind_eq_ok_iff, run_pure_eq_ok_iff] at accepted
  obtain ⟨_, _, _, read, _, innerRead, _, _, _, rfl, _⟩ := accepted
  exact inner innerRead

theorem body_nests (reading : Reading Test) :
    Reading.Ensures (do return Body.test (← reading)) fun body => Part.Nests levels (.body body) := by
  intro tokens rest body accepted
  simp only [run_bind_eq_ok_iff, run_pure_eq_ok_iff] at accepted
  obtain ⟨test, _, _, rfl, _⟩ := accepted
  exact .test

variable {operands : Scope → Reading (List Operand)}

theorem fieldValue_nests (inner : (operands .fieldGroup).Ensures fun read =>
      Part.Nests levels (.operands read)) (field : FieldReference) :
    (fieldValue field operands).Ensures fun body => Part.Nests levels (.body body) := by
  intro tokens rest body accepted
  simp only [fieldValue, run_bind_eq_ok_iff, run_pure_eq_ok_iff, run_look] at accepted
  obtain ⟨shape, _, _, decided⟩ := accepted
  split at decided
  · simp only [run_bind_eq_ok_iff, run_pure_eq_ok_iff] at decided
    obtain ⟨read, _, groupRead, rfl, _⟩ := decided
    exact .fieldGroup (group_nests inner groupRead)
  · simp only [run_bind_eq_ok_iff, run_pure_eq_ok_iff] at decided
    obtain ⟨test, _, rangeRead, rfl, _⟩ := decided
    obtain ⟨_, _, written⟩ := range_written rangeRead
    exact .fieldSpan (.range written)
  · rw [run_bind_eq_ok_iff] at decided
    obtain ⟨found, _, _, decided⟩ := decided
    split at decided
    · simp only [run_bind_eq_ok_iff, run_pure_eq_ok_iff] at decided
      obtain ⟨test, _, proximityRead, rfl, _⟩ := decided
      obtain ⟨_, _, written⟩ := proximity_written proximityRead
      exact .fieldSpan (.proximity written)
    · split at decided
      · simp only [run_bind_eq_ok_iff, run_pure_eq_ok_iff] at decided
        obtain ⟨_, _, _, _, _, _, rfl, _⟩ := decided
        exact .test
      · simp only [run_bind_eq_ok_iff, run_pure_eq_ok_iff] at decided
        obtain ⟨_, _, _, _, _, _, rfl, _⟩ := decided
        exact .test
      · rw [run_look] at decided
        exact absurd decided run_fail_ne_ok

theorem plainTest_nests
    (inner : (operands scope).Ensures fun read => Part.Nests levels (.operands read)) :
    (plainTest scope operands).Ensures fun body => Part.Nests levels (.body body) := by
  intro tokens rest body accepted
  rw [plainTest, run_look] at accepted
  split at accepted
  case h_6 =>
    simp only [run_bind_eq_ok_iff, run_pure_eq_ok_iff] at accepted
    obtain ⟨read, _, groupRead, rfl, _⟩ := accepted
    exact .group (group_nests inner groupRead)
  case h_8 => exact absurd accepted run_fail_ne_ok
  all_goals exact body_nests _ accepted

/-- What a test is made of has as many levels as the operands in it. -/
theorem test_nests
    (inner : ∀ scope, (operands scope).Ensures fun read => Part.Nests levels (.operands read)) :
    (test scope operands).Ensures fun body => Part.Nests levels (.body body) := by
  intro tokens rest body accepted
  simp only [test, run_within_eq_ok_iff, run_bind_eq_ok_iff] at accepted
  obtain ⟨found, _, _, decided⟩ := accepted
  split at decided
  · exact body_nests _ decided
  · rw [run_bind_eq_ok_iff] at decided
    obtain ⟨form, _, _, decided⟩ := decided
    cases form with
    | none => exact plainTest_nests (inner scope) decided
    | some qualified =>
        simp only [fieldQualified, run_within_eq_ok_iff, run_bind_eq_ok_iff] at decided
        obtain ⟨field, _, _, valueRead⟩ := decided
        exact fieldValue_nests (inner .fieldGroup) field valueRead

theorem laterOperands_nests {operand : Link → Reading Operand}
    (single : ∀ link, (operand link).Ensures fun read => Part.Nests levels (.operand read))
    (limit : Nat) :
    (laterOperands scope operand limit).Ensures fun read =>
      ∀ next ∈ read, Part.Nests levels (.operand next) := by
  induction limit with
  | zero =>
      intro tokens rest read accepted
      obtain ⟨rfl, _⟩ := run_pure_eq_ok_iff.mp accepted
      exact List.forall_mem_nil _
  | succ limit ih =>
      intro tokens rest read accepted
      cases ahead : linkAhead? scope tokens with
      | none =>
          rw [run_laterOperands_of_unlinked ahead] at accepted
          cases accepted
          exact List.forall_mem_nil _
      | some link =>
          obtain ⟨_, _, _, first, later, _, _, _, firstRead, laterRead, rfl⟩ :=
            exists_of_run_laterOperands ahead accepted
          exact List.forall_mem_cons.mpr ⟨single link firstRead, ih laterRead⟩

theorem operands_nests {operand : Link → Reading Operand}
    (single : ∀ link, (operand link).Ensures fun read => Part.Nests levels (.operand read)) :
    (Grammar.operands scope operand).Ensures fun read => Part.Nests levels (.operands read) := by
  intro tokens rest read accepted
  simp only [Grammar.operands, run_within_eq_ok_iff, run_bind_eq_ok_iff, run_pure_eq_ok_iff,
    run_look] at accepted
  obtain ⟨first, _, ⟨_, _, _, firstRead⟩, later, _, laterRead, rfl, _⟩ := accepted
  exact .operands
    (List.forall_mem_cons.mpr ⟨single .opening firstRead, laterOperands_nests single _ laterRead⟩)

theorem operand_nests (link : Link) :
    (operand levels scope link).Ensures fun read => Part.Nests levels (.operand read) := by
  induction levels generalizing scope link with
  | zero =>
      intro tokens rest read accepted
      rw [operand, run_within_eq_ok_iff] at accepted
      exact absurd accepted run_fail_ne_ok
  | succ levels ih =>
      intro tokens rest read accepted
      simp only [operand, run_within_eq_ok_iff, run_bind_eq_ok_iff, run_pure_eq_ok_iff] at accepted
      obtain ⟨_, _, _, body, _, bodyRead, _, _, _, rfl, _⟩ := accepted
      exact .operand (test_nests (fun _ => operands_nests fun link => ih link) bodyRead)

end Grammar

/-- What is accepted in either dialect has no more levels than the grammar. -/
theorem readTokens_nests {mode : Mode} {tokens : List Token} {operands : List Operand}
    (accepted : readTokens mode tokens = .ok operands) :
    Part.Nests maxLevels (.operands operands) := by
  cases mode with
  | cmis =>
      apply Part.Nests.operands
      intro item member
      cases readTokens_plain accepted item member with
      | default _ => exact .operand .test
      | exclude _ => exact .operand .test
  | defaultConjunction | defaultDisjunction =>
      obtain ⟨rest, run⟩ := readTokens_eq_ok_iff.mp accepted
      simp only [readQuery, Mode.dialect, Grammar.query, run_within_eq_ok_iff, run_bind_eq_ok_iff,
        run_pure_eq_ok_iff] at run
      obtain ⟨read, _, operandsRead, _, _, _, rfl, _⟩ := run
      exact operands_nests operand_nests operandsRead

/-!
## Trees
-/

variable {settings : Settings}

theorem Settings.nesting_soleInField (settings : Settings) (field : FieldReference) (test : Test) :
    (settings.soleInField field test).nesting = 1 := by
  have body : (settings.sole .fieldGroup (test.toNode .fieldGroup)).nesting = 1 := by
    rw [sole]
    split <;> simp [Node.nesting_branch, Node.nestingAll, test.nesting_toNode,
      NodeKind.ownNesting, Form.isSigned]
  simp [soleInField, Node.nesting_branch, Node.nestingAll, field.nesting_toNode, body,
    NodeKind.ownNesting]

theorem Node.NestedIn.soleInField (settings : Settings) (levels : Nat) (field : FieldReference)
    {test : Test} {span : List Token} (written : test.SpanWritten span) :
    (settings.soleInField field test).NestedIn settings levels := by
  have nesting := settings.nesting_soleInField field test
  constructor
  · omega
  · intro deep
    obtain rfl : levels = 0 := by omega
    exact ⟨field, test, span, written, .here⟩

theorem Node.NestedIn.groupTree {levels : Nat} {scope : Scope} {operands : List Operand}
    (within : ∀ node ∈ Part.nodes (Arrangement.ofSettings settings) scope (.operands operands),
      node.NestedIn settings levels) :
    (settings.groupTree scope operands).NestedIn settings levels := by
  apply Node.NestedIn.junction
  rw [Operand.linkedNodes_eq_map, List.map_map]
  exact within

/-- The nodes of a part nest no deeper than its levels, except around a range or a proximity after a
field. -/
theorem Part.Nests.nestedIn (settings : Settings) {levels : Nat} {part : Part}
    (nests : part.Nests levels) (scope : Scope) :
    ∀ node ∈ part.nodes (Arrangement.ofSettings settings) scope, node.NestedIn settings levels := by
  induction nests generalizing scope with
  | @operand levels _ sign body boost _ ih =>
      have counted : (NodeKind.form scope sign.form).ownNesting = 1 := if_pos sign.isSigned_form
      have bodyNested := List.forall_mem_singleton.mp (ih scope)
      refine List.forall_mem_singleton.mpr ?_
      rw [Operand.toNode, ← counted]
      apply Node.NestedIn.branch
      refine List.forall_mem_cons.mpr ⟨bodyNested, ?_⟩
      cases boost with
      | none => exact List.forall_mem_nil _
      | some factor =>
          have flat : (Node.branch .boost [factor.toNode]).nesting ≤ levels := Nat.zero_le _
          exact List.forall_mem_singleton.mpr (.of_nesting_le flat)
  | @test levels single =>
      have flat : (single.toNode scope).nesting ≤ levels := by
        rw [single.nesting_toNode]
        exact Nat.zero_le _
      refine List.forall_mem_singleton.mpr ?_
      rw [Body.toNode]
      exact .of_nesting_le flat
  | group _ ih =>
      refine List.forall_mem_singleton.mpr ?_
      rw [Body.toNode_group]
      exact .groupTree (ih scope)
  | @fieldGroup levels field operands _ ih =>
      have flat : field.toNode.nesting ≤ levels := by
        rw [field.nesting_toNode]
        exact Nat.zero_le _
      refine List.forall_mem_singleton.mpr ?_
      rw [Body.toNode_fieldGroup]
      apply Node.NestedIn.unsigned rfl
      exact List.forall_mem_cons.mpr ⟨.of_nesting_le flat,
        List.forall_mem_singleton.mpr (.groupTree (ih .fieldGroup))⟩
  | @fieldSpan levels field test span written =>
      refine List.forall_mem_singleton.mpr ?_
      rw [Body.toNode_fieldSpan]
      exact .soleInField settings levels field written
  | operands _ ih =>
      refine List.forall_mem_map.mpr ?_
      intro single member
      exact List.forall_mem_singleton.mp (ih single member scope)

/-- The tree of an accepted query nests at most one operand deeper than the grammar has levels. It
does so exactly if a range or a proximity after a field stands inside as many operands as there are
levels. -/
theorem parseTokens_nesting_le {tokens : List Token} {tree : Node}
    (accepted : parseTokens settings tokens = .ok tree) :
    tree.nesting ≤ maxLevels + 1 ∧
      (maxLevels < tree.nesting ↔
        ∃ (field : FieldReference) (test : Test) (span : List Token), test.SpanWritten span ∧
          (settings.soleInField field test).StandsInside maxLevels tree) := by
  obtain ⟨operands, read, rfl⟩ := parseTokens_eq_ok_iff.mp accepted
  have nested : (settings.groupTree .query operands).NestedIn settings maxLevels :=
    .groupTree ((readTokens_nests read).nestedIn settings .query)
  refine ⟨nested.nesting_le, nested.spans, ?_⟩
  intro stands
  obtain ⟨field, test, _, _, inside⟩ := stands
  have deep := inside.add_nesting_le
  rw [settings.nesting_soleInField] at deep
  exact deep

/-- As many parentheses around the tokens of `f:1..9`. -/
def parenthesizedSpan (count : Nat) : List Token :=
  let opened := (List.range count).map fun place => ⟨.lparen, "(", place, place + 1⟩
  let closed := (List.range count).map fun place =>
    ⟨.rparen, ")", count + 6 + place, count + 7 + place⟩
  opened ++
    [⟨.id, "f", count, count + 1⟩, ⟨.colon, ":", count + 1, count + 2⟩,
      ⟨.integer, "1", count + 2, count + 3⟩, ⟨.dotDot, "..", count + 3, count + 5⟩,
      ⟨.integer, "9", count + 5, count + 6⟩] ++ closed

/-- A range after a field in sixty-three parentheses. -/
theorem nesting_of_parenthesized_span :
    ∃ tree, parseTokens .standard (parenthesizedSpan 63) = .ok tree ∧
      tree.nesting ≤ maxLevels + 1 ∧
      (maxLevels < tree.nesting ↔
        ∃ (field : FieldReference) (test : Test) (span : List Token), test.SpanWritten span ∧
          (Settings.standard.soleInField field test).StandsInside maxLevels tree) := by
  cases parsed : parseTokens .standard (parenthesizedSpan 63) with
  | ok tree => exact ⟨tree, rfl, parseTokens_nesting_le parsed⟩
  | error error =>
      have accepted : (parseTokens .standard (parenthesizedSpan 63)).isOk = true := by
        decide +kernel
      rw [parsed] at accepted
      cases accepted

/-- It is accepted, and its tree nests deeper than the grammar has levels. -/
theorem nesting_exceeds_levels :
    ∃ tree, parseTokens .standard (parenthesizedSpan 63) = .ok tree ∧ maxLevels < tree.nesting := by
  have deep : (parseTokens .standard (parenthesizedSpan 63)).toOption.map Node.nesting =
      some (maxLevels + 1) := by
    decide +kernel
  cases parsed : parseTokens .standard (parenthesizedSpan 63) with
  | ok tree =>
      rw [parsed] at deep
      exact ⟨tree, rfl, by rw [Option.some.inj deep]; exact Nat.lt_succ_self _⟩
  | error error =>
      rw [parsed] at deep
      cases deep

end SearchQuery
