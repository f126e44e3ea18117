import SearchQuery.Proofs.Spelling.Junctions
import SearchQuery.Proofs.Written.Operands
set_option autoImplicit false

/-!
# Spelled queries are accepted

Every tree that a query may have is the tree of explicit operands, which are written with the tokens
that spell the tree. So the tree is what is read from these tokens, and the operators, parentheses
and marks of a spelling bind as the tree says.
-/

namespace SearchQuery

variable {settings : Settings} {scope : Scope} {levels : Nat} {tokens : List Token}

theorem Test.beginsWithNot_toNode (test : Test) (scope : Scope) :
    (test.toNode scope).beginsWithNot = test.beginsWithNot := by
  cases test with
  | term word field fuzziness =>
      rw [Bool.eq_iff_iff]
      cases field <;> cases fuzziness <;>
        simp [toNode, qualifiers, Node.branch, Node.beginsWithNot, beginsWithNot, Node.kind,
          Leaf.toNode, Node.leaf, FieldReference.toNode]
  | proximity first steps =>
      rw [Bool.eq_iff_iff]
      simp [toNode, Node.branch, Node.beginsWithNot, beginsWithNot, Node.kind, Leaf.toNode,
        Node.leaf]
  | _ => rfl

theorem Link.written_of_lexemes {link : Link} (connects : link = .and ∨ link = .or)
    (spelled : tokens.map Token.lexeme = link.lexemes) : link.Written tokens := by
  rcases connects with rfl | rfl
  · obtain ⟨operator, rfl, same⟩ := List.map_eq_singleton_iff.mp spelled
    exact .operator (List.mem_cons.mpr (.inl (congrArg Prod.fst same)))
  · obtain ⟨operator, rfl, same⟩ := List.map_eq_singleton_iff.mp spelled
    exact .operator (List.mem_cons.mpr (.inl (congrArg Prod.fst same)))

namespace Node

/-- A node is that of an operand, behind whatever link, and the operand is written with the tokens
that spell the node. -/
def ReadsAsOperand (settings : Settings) (scope : Scope) (levels : Nat) (node : Node) : Prop :=
  ∀ ⦃tokens : List Token⦄, tokens.map Token.lexeme = node.spelling → ∀ link : Link,
    ∃ operand : Operand, operand.link = link ∧
      operand.toNode (Arrangement.ofSettings settings) scope = node ∧
      Part.Written scope (.operand operand) tokens ∧ Part.Explicit levels (.operand operand)

theorem exists_later {items : List (Link × Node)}
    (connected : ∀ item ∈ items, item.1 = .and ∨ item.1 = .or)
    (read : ∀ item ∈ items, item.2.ReadsAsOperand settings scope levels) {tokens : List Token}
    (spelled : tokens.map Token.lexeme = laterSpelling items) :
    ∃ later : List Operand,
      Operand.linkedNodes (Arrangement.ofSettings settings) scope later = items ∧
        Part.Written scope (.later later) tokens ∧ Part.Explicit levels (.later later) := by
  induction items generalizing tokens with
  | nil =>
      obtain rfl := List.map_eq_nil_iff.mp spelled
      exact ⟨[], rfl, .done, .done⟩
  | cons item items ih =>
      obtain ⟨link, node⟩ := item
      obtain ⟨linkConnects, itemsConnected⟩ := List.forall_mem_cons.mp connected
      obtain ⟨nodeRead, itemsRead⟩ := List.forall_mem_cons.mp read
      rw [laterSpelling, List.flatMap_cons, ← laterSpelling] at spelled
      obtain ⟨_, others, rfl, spelled, othersSpelled⟩ := List.map_eq_append_iff.mp spelled
      obtain ⟨operators, operandTokens, rfl, operatorSpelled, operandSpelled⟩ :=
        List.map_eq_append_iff.mp spelled
      obtain ⟨operand, rfl, rfl, written, explicit⟩ := nodeRead operandSpelled link
      obtain ⟨later, rfl, laterWritten, laterExplicit⟩ := ih itemsConnected itemsRead othersSpelled
      have notAdjacent : operand.link ≠ .adjacent := by
        intro adjacent
        simp [adjacent] at linkConnects
      exact ⟨operand :: later, Operand.linkedNodes_cons _ _ _ _,
        .later (Link.written_of_lexemes linkConnects operatorSpelled) written laterWritten,
        .later notAdjacent explicit laterExplicit⟩

/-- A junction is that of the operands of its items. -/
theorem Joins.exists_operands {node first : Node} {rest : List (Link × Node)}
    (joins : node.Joins settings scope levels first rest)
    (read : ∀ child : Node, child.IsOperandOf settings scope levels →
      child.ReadsAsOperand settings scope levels)
    (spelled : tokens.map Token.lexeme = node.spelling) :
    ∃ operands : List Operand,
      (Arrangement.ofSettings settings scope).junction scope
          (Operand.linkedNodes (Arrangement.ofSettings settings) scope operands) = node ∧
        Part.Written scope (.operands operands) tokens ∧
        Part.Explicit levels (.operands operands) := by
  rw [joins.spelling] at spelled
  obtain ⟨firstTokens, others, rfl, firstSpelled, othersSpelled⟩ :=
    List.map_eq_append_iff.mp spelled
  obtain ⟨operand, opens, same, written, explicit⟩ := read first joins.first firstSpelled .opening
  obtain ⟨later, laterSame, laterWritten, laterExplicit⟩ :=
    exists_later joins.connected (fun item member => read item.2 (joins.rest item member))
      othersSpelled
  refine ⟨operand :: later, ?_, .operands opens written laterWritten,
    .operands explicit laterExplicit⟩
  rw [Operand.linkedNodes_cons, opens, same, laterSame, joins.junction]

/-- What an operand applies to is read from the tokens that spell it in parentheses or without. -/
def ReadsAsBody (settings : Settings) (scope : Scope) (levels : Nat) (tokens : List Token)
    (node : Node) : Prop :=
  ∃ body : Body, body.toNode (Arrangement.ofSettings settings) scope = node ∧
    Part.Written scope (.body body) tokens ∧ Part.Explicit levels (.body body) ∧
    body.beginsWithNot = node.beginsWithNot

section

variable {node : Node} (spellable : node.Spellable settings)
  (nesting_le : node.nesting ≤ levels)

include spellable

theorem readsAsBody_of_test (isTest : node.kind.isTest scope = true)
    (single : node.kind ≠ .fieldGroup)
    (spelled : tokens.map Token.lexeme = (Spelled.mk node.kind node.spelling).enclosed) :
    node.ReadsAsBody settings scope levels tokens := by
  have bare : (Spelled.mk node.kind node.spelling).enclosed = node.spelling := by
    unfold Spelled.enclosed
    split
    · next inner kind => simp_all [NodeKind.isTest, Form.isOperator]
    · next inner kind => simp_all [NodeKind.isTest, Form.isOperator]
    · rfl
  obtain ⟨test, rfl, written⟩ :=
    spellable.shaped.exists_test isTest single (spelled.trans bare)
  exact ⟨.test test, by rw [Body.toNode], .test written, .test,
    (test.beginsWithNot_toNode scope).symm⟩

include nesting_le

theorem readsAsBody_of_junction (full : settings.mode.dialect = .full)
    (read : ∀ child : Node, child.IsOperandOf settings scope levels →
      child.ReadsAsOperand settings scope levels)
    (junction : node.kind.isJunction scope = true)
    (alone : node.kind = .form scope .conjunction → settings.conjoins scope = true)
    (spelled : tokens.map Token.lexeme = (Spelled.mk node.kind node.spelling).enclosed) :
    node.ReadsAsBody settings scope levels tokens := by
  have enclosed : (Spelled.mk node.kind node.spelling).enclosed =
      (.lparen, "(") :: node.spelling ++ [(.rparen, ")")] := by
    unfold Spelled.enclosed
    split
    · rfl
    · rfl
    · next noDisjunction noConjunction =>
        unfold NodeKind.isJunction at junction
        split at junction
        · next kind => exact absurd kind (noDisjunction _)
        · next kind => exact absurd kind (noConjunction _)
        · cases junction
  obtain ⟨first, rest, joins⟩ := exists_joins full junction spellable alone nesting_le
  rw [enclosed, List.cons_append] at spelled
  obtain ⟨opening, _, rfl, opens, spelled⟩ := List.map_eq_cons_iff.mp spelled
  obtain ⟨inner, closings, rfl, innerSpelled, closingSpelled⟩ := List.map_eq_append_iff.mp spelled
  obtain ⟨closing, rfl, closes⟩ := List.map_eq_singleton_iff.mp closingSpelled
  obtain ⟨operands, same, written, explicit⟩ := joins.exists_operands read innerSpelled
  refine ⟨.group operands, by rw [Body.toNode, same],
    .group (congrArg Prod.fst opens) written (congrArg Prod.fst closes), .group explicit, ?_⟩
  obtain ⟨kind, children, literal⟩ := node
  cases kind with
  | form inner role => cases role <;> first | rfl | cases junction
  | _ => rfl

theorem readsAsBody_of_fieldGroup (full : settings.mode.dialect = .full)
    (read : ∀ child : Node, child.IsOperandOf settings .fieldGroup levels →
      child.ReadsAsOperand settings .fieldGroup levels)
    (kind : node.kind = .fieldGroup)
    (spelled : tokens.map Token.lexeme = (Spelled.mk node.kind node.spelling).enclosed) :
    node.ReadsAsBody settings .query levels tokens := by
  rw [kind] at spelled
  obtain ⟨children, rfl, admitted, below, spelled⟩ :=
    spellable.shaped.exists_children kind (by simp) spelled
  match children with
  | [fieldNode, bodyNode] =>
      simp only [NodeKind.admits_fieldGroup, Bool.and_eq_true, beq_iff_eq] at admitted
      obtain ⟨fieldKind, junction⟩ := admitted
      obtain ⟨beforeClosing, closings, rfl, spelled, closingSpelled⟩ :=
        List.map_eq_append_iff.mp spelled
      obtain ⟨fieldTokens, _, rfl, fieldSpelled, spelled⟩ := List.map_eq_append_iff.mp spelled
      obtain ⟨colon, _, rfl, colonSame, spelled⟩ := List.map_eq_cons_iff.mp spelled
      obtain ⟨opening, inner, rfl, opens, innerSpelled⟩ := List.map_eq_cons_iff.mp spelled
      obtain ⟨closing, rfl, closes⟩ := List.map_eq_singleton_iff.mp closingSpelled
      obtain ⟨field, rfl, bare⟩ :=
        (below fieldNode (by simp)).exists_field fieldKind fieldSpelled
      have bodySpellable : bodyNode.Spellable settings :=
        spellable.child (by simp [branch, Node.children])
      have bodyNesting : bodyNode.nesting ≤ levels :=
        Nat.le_trans (nesting_le_of_mem (by simp)) nesting_le
      have alone (kind : bodyNode.kind = .form .fieldGroup .conjunction) :
          settings.conjoins .fieldGroup = true :=
        spellable.conjoins (by simp [branch, Node.children]) kind (by simp)
      obtain ⟨first, rest, joins⟩ := exists_joins full junction bodySpellable alone bodyNesting
      obtain ⟨operands, same, written, explicit⟩ := joins.exists_operands read innerSpelled
      have qualifying : field.Qualifying (fieldTokens ++ [colon]) :=
        .mk (.bare bare) (congrArg Prod.fst colonSame)
      refine ⟨.fieldGroup field operands, by rw [Body.toNode, same], ?_, .fieldGroup explicit, rfl⟩
      simpa using Part.Written.fieldGroup qualifying (congrArg Prod.fst opens) written
        (congrArg Prod.fst closes)

end

end Node

namespace Form

theorem spell_of_signed {role : Form} (signed : role.isSigned = true) (body : Spelled)
    (rest : List Spelled) :
    role.spell (body :: rest) = role.mark ++ body.enclosed ++ rest.flatMap Spelled.lexemes := by
  cases role <;> first | rfl | cases signed

theorem children_of_signed {role : Form} (signed : role.isSigned = true) {children : List Node}
    (admitted : role.admits settings scope children = true) :
    ∃ body rest, children = body :: rest ∧
      (body.kind.isTest scope = true ∨ body.kind.isJunction scope = true) ∧
      (rest = [] ∨ ∃ boost : Node, rest = [boost] ∧ boost.kind = .boost) := by
  obtain ⟨sign, rfl⟩ := Sign.exists_form_eq signed
  rcases children with _ | ⟨body, _ | ⟨boost, _ | ⟨_, _⟩⟩⟩
  · cases sign <;> cases admitted
  · rw [admits_sign, Bool.or_eq_true] at admitted
    exact ⟨body, [], rfl, admitted, .inl rfl⟩
  · simp only [admits_sign_boost, Bool.and_eq_true, Bool.or_eq_true, beq_iff_eq] at admitted
    exact ⟨body, [boost], rfl, admitted.1, .inr ⟨boost, rfl, admitted.2⟩⟩
  · cases sign <;> cases admitted

/-- The mark of an operand is that of its sign. -/
theorem exists_sign {role : Form} (signed : role.isSigned = true)
    (spelled : tokens.map Token.lexeme = role.mark) :
    ∃ sign : Sign, sign.form = role ∧ sign.Written tokens := by
  have marked {sign : Sign} {mark : Lexeme} (member : mark.1 ∈ sign.kinds)
      (spelled : tokens.map Token.lexeme = [mark]) : sign.Written tokens := by
    obtain ⟨token, rfl, same⟩ := List.map_eq_singleton_iff.mp spelled
    exact .present (by rwa [← same] at member)
  cases role with
  | negation => exact ⟨.negation, rfl, marked (by decide) spelled⟩
  | mandatory => exact ⟨.mandatory, rfl, marked (by decide) spelled⟩
  | optional => exact ⟨.optional, rfl, marked (by decide) spelled⟩
  | exclude => exact ⟨.exclude, rfl, marked (by decide) spelled⟩
  | default =>
      obtain rfl := List.map_eq_nil_iff.mp spelled
      exact ⟨.none, rfl, .absent⟩
  | _ => cases signed

end Form

namespace Node

theorem exists_boost {rest : List Node}
    (boosts : rest = [] ∨ ∃ boost : Node, rest = [boost] ∧ boost.kind = .boost)
    (shaped : ∀ child ∈ rest, child.Shaped settings)
    (spelled : tokens.map Token.lexeme = (Node.spelled rest).flatMap Spelled.lexemes) :
    ∃ boost : Option Number,
      (boost.toList.map fun factor => branch .boost [factor.toNode]) = rest ∧
        SuffixWritten .caret boost tokens := by
  rcases boosts with rfl | ⟨boost, rfl, kind⟩
  · obtain rfl := List.map_eq_nil_iff.mp spelled
    exact ⟨none, rfl, .absent⟩
  · have boostShaped := shaped boost (by simp)
    have holds : boost.holds .boost TokenKind.numbers = true := by
      obtain ⟨children, rfl, admitted⟩ := boostShaped.exists_branch kind (by simp)
      match children with
      | [number] => simpa [branch, Node.holds] using admitted
    simp only [Node.spelled, List.flatMap_cons, List.flatMap_nil, List.append_nil] at spelled
    obtain ⟨number, rfl, written⟩ :=
      boostShaped.exists_suffix holds (by simp) (fun _ => rfl) spelled
    exact ⟨some number, rfl, written⟩

theorem nesting_lt_of_signed (scope : Scope) {role : Form} (signed : role.isSigned = true)
    {children : List Node} {child : Node} (member : child ∈ children) :
    child.nesting < (branch (.form scope role) children).nesting := by
  rw [branch, nesting, if_pos signed]
  exact Nat.lt_succ_of_le (nesting_le_of_mem member)

theorem readsAsOperand_of_body {node : Node} {role : Form}
    (kind : node.kind = .form scope role) (signed : role.isSigned = true)
    (spellable : node.Spellable settings) (nesting_le : node.nesting ≤ levels + 1)
    (read : ∀ (body : Node) (tokens : List Token), body.Spellable settings →
      body.nesting ≤ levels →
      (body.kind.isTest scope = true ∨ body.kind.isJunction scope = true) →
      (body.kind = .form scope .conjunction → settings.conjoins scope = true) →
      tokens.map Token.lexeme = (Spelled.mk body.kind body.spelling).enclosed →
      body.ReadsAsBody settings scope levels tokens) :
    node.ReadsAsOperand settings scope (levels + 1) := by
  intro tokens spelled link
  obtain ⟨children, rfl, admitted, below, spelled⟩ :=
    spellable.shaped.exists_children kind (by simp) spelled
  obtain ⟨body, rest, rfl, bodyKind, boosts⟩ := Form.children_of_signed signed admitted
  rw [Node.spelled, NodeKind.spell, Form.spell_of_signed signed] at spelled
  obtain ⟨_, suffix, rfl, spelled, suffixSpelled⟩ := List.map_eq_append_iff.mp spelled
  obtain ⟨front, bodyTokens, rfl, frontSpelled, bodySpelled⟩ := List.map_eq_append_iff.mp spelled
  have bodyNesting := Nat.le_of_succ_le_succ
    (Nat.le_trans (nesting_lt_of_signed scope signed List.mem_cons_self) nesting_le)
  have alone (conjunction : body.kind = .form scope .conjunction) :
      settings.conjoins scope = true := by
    refine spellable.conjoins List.mem_cons_self conjunction fun disjunction => ?_
    cases disjunction.symm.trans kind
    cases signed
  obtain ⟨held, rfl, written, explicit, begins⟩ := read body bodyTokens
    (spellable.child List.mem_cons_self) bodyNesting bodyKind alone bodySpelled
  obtain ⟨boost, rfl, boostWritten⟩ := exists_boost boosts
    (fun child member => below child (List.mem_cons_of_mem _ member)) suffixSpelled
  obtain ⟨sign, rfl, signWritten⟩ := Form.exists_sign signed frontSpelled
  refine ⟨.mk link sign held boost, rfl, by rw [Operand.toNode],
    .operand signWritten written boostWritten, .operand (fun unsigned => ?_) explicit⟩
  subst unsigned
  rw [begins]
  exact spellable.beginsWithNot kind List.mem_cons_self

theorem exists_form_of_isSigned {kind : NodeKind} (isSigned : kind.isSigned scope = true) :
    ∃ role : Form, kind = .form scope role ∧ role.isSigned = true := by
  cases kind with
  | form inner role =>
      obtain ⟨same, signed⟩ := Bool.and_eq_true_iff.mp isSigned
      obtain rfl := beq_iff_eq.mp same
      exact ⟨role, rfl, signed⟩
  | _ => cases isSigned

/-- The node of an operand reads as that operand. The recursion is on the number of operands that
are on a way down the tree. -/
theorem IsOperandOf.readsAsOperand (full : settings.mode.dialect = .full) {node : Node}
    (operand : node.IsOperandOf settings scope levels) :
    node.ReadsAsOperand settings scope levels := by
  induction levels generalizing scope node with
  | zero =>
      obtain ⟨isSigned, spellable, nesting_le⟩ := operand
      obtain ⟨role, kind, signed⟩ := exists_form_of_isSigned isSigned
      obtain ⟨children, rfl, admitted⟩ := spellable.shaped.exists_branch kind (by simp)
      obtain ⟨body, rest, rfl, _⟩ := Form.children_of_signed signed admitted
      have member : body ∈ body :: rest := List.mem_cons_self
      have positive := nesting_lt_of_signed scope signed member
      omega
  | succ levels ih =>
      obtain ⟨isSigned, spellable, nesting_le⟩ := operand
      obtain ⟨role, kind, signed⟩ := exists_form_of_isSigned isSigned
      refine readsAsOperand_of_body kind signed spellable nesting_le ?_
      intro body tokens bodySpellable bodyNesting bodyKind alone spelled
      rcases bodyKind with isTest | junction
      · by_cases grouped : body.kind = .fieldGroup
        · obtain rfl : scope = .query := by
            rw [grouped] at isTest
            exact beq_iff_eq.mp isTest
          exact readsAsBody_of_fieldGroup bodySpellable bodyNesting full (fun _ inner => ih inner)
            grouped spelled
        · exact readsAsBody_of_test bodySpellable isTest grouped spelled
      · exact readsAsBody_of_junction bodySpellable bodyNesting full (fun _ inner => ih inner)
          junction alone spelled

end Node

/-- A tree that a query may have is what is read from the tokens that spell it. -/
theorem parseTokens_spelling (full : settings.mode.dialect = .full) {tree : Node}
    (query : tree.IsQuery settings) (spelled : tokens.map Token.lexeme = tree.spelling) :
    parseTokens settings tokens = .ok tree := by
  obtain ⟨first, rest, joins⟩ :=
    Node.exists_joins full query.root query.spellable query.grouped query.nesting_le
  obtain ⟨operands, rfl, written, explicit⟩ :=
    joins.exists_operands (fun _ operand => operand.readsAsOperand full) spelled
  rw [parseTokens_eq_ok_iff]
  exact ⟨operands, (readTokens_eq_ok_iff_written full explicit tokens).mpr written, rfl⟩

/-- A tree that is spelled `! ( a || f : ( b && + c ) ) && [ 1 TO 9 ] ^ 2`. -/
theorem spelling_of_negated_alternatives :
    let word (text : String) : Node :=
      .branch (.form .query .default) [.branch (.form .query .term) [.leaf .id text]]
    let inside (role : Form) (text : String) : Node :=
      .branch (.form .fieldGroup role) [.branch (.form .fieldGroup .term) [.leaf .id text]]
    let grouped : Node :=
      .branch .fieldGroup [.branch .fieldRef [.leaf .id "f"],
        .branch (.form .fieldGroup .conjunction) [inside .default "b", inside .mandatory "c"]]
    let alternatives : Node :=
      .branch (.form .query .disjunction) [.branch (.form .query .conjunction) [word "a"],
        .branch (.form .query .conjunction) [.branch (.form .query .default) [grouped]]]
    let tree : Node :=
      .branch (.form .query .conjunction) [.branch (.form .query .negation) [alternatives],
        .branch (.form .query .default)
          [.branch (.form .query .range) [.marker .inclusive, .leaf .integer "1",
            .leaf .integer "9", .marker .inclusive], .branch .boost [.leaf .integer "2"]]]
    let tokens : List Token :=
      [⟨.exclamation, "!", 0, 1⟩, ⟨.lparen, "(", 2, 3⟩, ⟨.id, "a", 4, 5⟩, ⟨.barBar, "||", 6, 8⟩,
        ⟨.id, "f", 9, 10⟩, ⟨.colon, ":", 11, 12⟩, ⟨.lparen, "(", 13, 14⟩, ⟨.id, "b", 15, 16⟩,
        ⟨.ampAmp, "&&", 17, 19⟩, ⟨.plus, "+", 20, 21⟩, ⟨.id, "c", 22, 23⟩, ⟨.rparen, ")", 24, 25⟩,
        ⟨.rparen, ")", 26, 27⟩, ⟨.ampAmp, "&&", 28, 30⟩, ⟨.lsquare, "[", 31, 32⟩,
        ⟨.integer, "1", 33, 34⟩, ⟨.upTo, "TO", 35, 37⟩, ⟨.integer, "9", 38, 39⟩,
        ⟨.rsquare, "]", 40, 41⟩, ⟨.caret, "^", 42, 43⟩, ⟨.integer, "2", 44, 45⟩]
    Settings.standard.mode.dialect = .full ∧ tree.IsQuery .standard ∧
      tokens.map Token.lexeme = tree.spelling ∧ parseTokens .standard tokens = .ok tree := by
  intro word inside grouped alternatives tree tokens
  have query : tree.IsQuery .standard := ⟨rfl, fun _ => rfl, by decide, by decide⟩
  exact ⟨rfl, query, rfl, parseTokens_spelling rfl query rfl⟩

end SearchQuery
