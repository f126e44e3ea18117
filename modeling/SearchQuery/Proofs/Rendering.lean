import SearchQuery.Proofs.Rendering.Legible
import SearchQuery.Proofs.Spacing
import SearchQuery.Proofs.Tree.Leaves
import SearchQuery.Proofs.Tree.Shape
set_option autoImplicit false

/-!
# Reading an s-expression back

The trees of accepted queries are legible, so their s-expressions tell them apart. That takes both
what is known of their shapes and that their leaves are tokens of a query.
-/

namespace SearchQuery

/-!
## Tokens among the children
-/

namespace Node

theorem tokensAt_none {children : List Node}
    (labels : ∀ child ∈ children, child.kind.isToken = false) :
    TokensAt (fun _ => false) children := by
  intro index child found
  exact labels child (List.mem_of_getElem? found)

theorem tokensAt_first {first : Node} {rest : List Node} (token : first.kind.isToken = true)
    (labels : ∀ child ∈ rest, child.kind.isToken = false) :
    TokensAt (fun index => index == 0) (first :: rest) :=
  tokensAt_cons_iff.mpr ⟨token, tokensAt_none labels⟩

end Node

namespace NodeKind

variable {kind : NodeKind} {scope : Scope}

theorem isToken_of_isTokenOf {kinds : List TokenKind} (token : kind.isTokenOf kinds = true) :
    kind.isToken = true := by
  cases kind with
  | token => rfl
  | _ => cases token

theorem isToken_eq_false_of_isSigned (signed : kind.isSigned scope = true) :
    kind.isToken = false := by
  cases kind with
  | token => cases signed
  | _ => rfl

theorem isToken_eq_false_of_isJunction (junction : kind.isJunction scope = true) :
    kind.isToken = false := by
  cases kind with
  | token => cases junction
  | _ => rfl

theorem isToken_eq_false_of_isTest (test : kind.isTest scope = true) :
    kind.isToken = false := by
  cases kind with
  | token => cases test
  | _ => rfl

theorem isToken_eq_false_of_isMarker (marker : kind.isMarker = true) :
    kind.isToken = false := by
  cases kind with
  | token => cases marker
  | _ => rfl

end NodeKind

namespace Node

/-- The field and the number after a word or phrase have children of their own. -/
theorem isToken_eq_false_of_areQualifiers {scope : Scope} {numbers : List TokenKind}
    {children : List Node} (qualifiers : areQualifiers scope numbers children = true) :
    ∀ child ∈ children, child.kind.isToken = false := by
  have fuzzy {child : Node} (holds : child.holds .fuzzy numbers = true) :
      child.kind.isToken = false := by
    unfold Node.holds at holds
    split at holds
    · simp only [Bool.and_eq_true, beq_iff_eq] at holds
      rw [Node.kind, holds.1]
      rfl
    · cases holds
  have field {child : Node} (named : scope = .query ∧ child.kind = .fieldRef) :
      child.kind.isToken = false := by
    rw [named.2]
    rfl
  unfold areQualifiers at qualifiers
  split at qualifiers
  · exact List.forall_mem_nil _
  · simp only [Bool.or_eq_true, Bool.and_eq_true, beq_iff_eq] at qualifiers
    exact List.forall_mem_singleton.mpr (qualifiers.elim fuzzy field)
  · simp only [Bool.and_eq_true, beq_iff_eq] at qualifiers
    exact List.forall_mem_cons.mpr
      ⟨field qualifiers.1, List.forall_mem_singleton.mpr (fuzzy qualifiers.2)⟩
  · cases qualifiers

/-- The words stand at even indices, with the distances between them. -/
theorem tokensAt_of_areSpaced {children : List Node} (spaced : areSpaced children = true) :
    TokensAt (fun index => index % 2 == 0) children := by
  fun_induction areSpaced children with
  | case1 word =>
      exact tokensAt_cons_iff.mpr ⟨NodeKind.isToken_of_isTokenOf spaced, tokensAt_nil _⟩
  | case2 word distance rest ih =>
      simp only [Bool.and_eq_true, beq_iff_eq] at spaced
      obtain ⟨⟨token, label⟩, later⟩ := spaced
      have distanceLabel : distance.kind.isToken = false := by
        rw [label]
        rfl
      have laterTokens : TokensAt (fun index => (index + 1 + 1) % 2 == 0) rest := by
        intro index child found
        have parity : (index + 1 + 1) % 2 = index % 2 := Nat.add_mod_right index 2
        have same : (index % 2 == 0) = ((index + 1 + 1) % 2 == 0) := by rw [parity]
        exact (ih later index child found).trans same
      exact tokensAt_cons_iff.mpr ⟨NodeKind.isToken_of_isTokenOf token,
        tokensAt_cons_iff.mpr ⟨distanceLabel, laterTokens⟩⟩
  | case3 => cases spaced

end Node

theorem Form.tokensAt_of_admits {settings : Settings} {scope : Scope} {form : Form}
    {children : List Node} (admitted : form.admits settings scope children = true) :
    Node.TokensAt form.holdsTokenAt children := by
  have bodyLabel {body : Node}
      (either : (body.kind.isTest scope || body.kind.isJunction scope) = true) :
      body.kind.isToken = false :=
    (Bool.or_eq_true_iff.mp either).elim NodeKind.isToken_eq_false_of_isTest
      NodeKind.isToken_eq_false_of_isJunction
  cases form with
  | disjunction =>
      simp only [admits_disjunction, Bool.and_eq_true, List.all_eq_true, beq_iff_eq] at admitted
      apply Node.tokensAt_none
      intro child member
      rw [admitted.2 child member]
      rfl
  | conjunction =>
      simp only [admits_conjunction, Bool.and_eq_true, List.all_eq_true] at admitted
      apply Node.tokensAt_none
      intro child member
      exact NodeKind.isToken_eq_false_of_isSigned (admitted.2 child member)
  | negation | default | mandatory | optional | exclude =>
      apply Node.tokensAt_none
      rcases children with _ | ⟨body, _ | ⟨boost, _ | _⟩⟩
      · cases admitted
      · exact List.forall_mem_singleton.mpr (bodyLabel admitted)
      · obtain ⟨either, label⟩ := Bool.and_eq_true_iff.mp admitted
        refine List.forall_mem_cons.mpr ⟨bodyLabel either, List.forall_mem_singleton.mpr ?_⟩
        rw [beq_iff_eq.mp label]
        rfl
      · cases admitted
  | term | exactTerm | synonym | phrase | exactPhrase =>
      cases children with
      | nil => cases admitted
      | cons word rest =>
          obtain ⟨token, qualifiers⟩ := Bool.and_eq_true_iff.mp admitted
          exact Node.tokensAt_first (NodeKind.isToken_of_isTokenOf token)
            (Node.isToken_eq_false_of_areQualifiers qualifiers)
  | range =>
      rcases children with _ | ⟨lower, _ | ⟨low, _ | ⟨high, _ | ⟨upper, _ | _⟩⟩⟩⟩
      case cons.cons.cons.cons.nil =>
        simp only [admits_range, Bool.and_eq_true] at admitted
        obtain ⟨⟨⟨lowerMarks, lowToken⟩, highToken⟩, upperMarks⟩ := admitted
        simp [Node.tokensAt_cons_iff, Node.tokensAt_nil, holdsTokenAt,
          NodeKind.isToken_eq_false_of_isMarker lowerMarks,
          NodeKind.isToken_of_isTokenOf lowToken, NodeKind.isToken_of_isTokenOf highToken,
          NodeKind.isToken_eq_false_of_isMarker upperMarks]
      all_goals cases admitted
  | proximity => exact Node.tokensAt_of_areSpaced (Bool.and_eq_true_iff.mp admitted).2

theorem NodeKind.tokensAt_of_admits {settings : Settings} {kind : NodeKind} {children : List Node}
    (admitted : kind.admits settings children = true) :
    Node.TokensAt kind.holdsTokenAt children := by
  cases kind with
  | form scope role => exact Form.tokensAt_of_admits admitted
  | fieldGroup =>
      apply Node.tokensAt_none
      rcases children with _ | ⟨field, _ | ⟨body, _ | _⟩⟩
      · cases admitted
      · cases admitted
      · obtain ⟨label, junction⟩ := Bool.and_eq_true_iff.mp admitted
        refine List.forall_mem_cons.mpr
          ⟨?_, List.forall_mem_singleton.mpr (isToken_eq_false_of_isJunction junction)⟩
        rw [beq_iff_eq.mp label]
        rfl
      · cases admitted
  | template =>
      simp only [admits_template, Bool.and_eq_true, List.all_eq_true, beq_iff_eq] at admitted
      apply Node.tokensAt_none
      intro field member
      rw [admitted.2 field member]
      rfl
  | fieldRef =>
      rcases children with _ | ⟨name, _ | ⟨qualifier, _ | _⟩⟩
      · cases admitted
      · exact Node.tokensAt_first (isToken_of_isTokenOf admitted) (List.forall_mem_nil _)
      · simp only [admits_fieldRef_qualified, Bool.and_eq_true, Bool.or_eq_true,
          beq_iff_eq] at admitted
        obtain ⟨token, label⟩ := admitted
        apply Node.tokensAt_first (isToken_of_isTokenOf token)
        rcases label with label | label <;> simp [label, isToken]
      · cases admitted
  | qualifierWord | nameSpace | boost | fuzzy =>
      rcases children with _ | ⟨only, _ | _⟩
      · cases admitted
      · exact Node.tokensAt_first (isToken_of_isTokenOf admitted) (List.forall_mem_nil _)
      · cases admitted
  | distance =>
      rcases children with _ | ⟨limit, _ | _⟩
      · exact Node.tokensAt_nil _
      · exact Node.tokensAt_first (isToken_of_isTokenOf admitted) (List.forall_mem_nil _)
      · cases admitted
  | inclusive | exclusive =>
      cases children with
      | nil => exact Node.tokensAt_nil _
      | cons _ _ => cases admitted
  | token kind => cases admitted

/-!
## Trees of queries
-/

theorem Node.isShaped_of_label {settings : Settings} {kind : NodeKind} {children : List Node}
    {literal : Option String} (label : kind.isToken = false) :
    (Node.mk kind children literal).isShaped settings =
      (literal.isNone && kind.admits settings children) := by
  cases kind with
  | token kind => cases label
  | _ => rfl

/-- A tree of the right shape is legible if its leaves stand by themselves. -/
theorem Node.Shaped.legible {settings : Settings} {node : Node} (shaped : node.Shaped settings)
    (stands : ∀ leaf ∈ node.leaves, ∃ token : Token, token.Stands ∧ token.signature = leaf) :
    node.Legible := by
  induction shaped with
  | @mk kind children literal here _ ih =>
      cases label : kind.isToken with
      | true =>
          cases kind with
          | token kind =>
              obtain ⟨filled, empty⟩ := Bool.and_eq_true_iff.mp here
              obtain ⟨text, rfl⟩ := Option.isSome_iff_exists.mp filled
              obtain rfl := List.isEmpty_iff.mp empty
              obtain ⟨token, tokenStands, signature⟩ := stands (kind, text) List.mem_cons_self
              cases signature
              exact .leaf tokenStands
          | _ => cases label
      | false =>
          rw [isShaped_of_label label] at here
          obtain ⟨untexted, admitted⟩ := Bool.and_eq_true_iff.mp here
          obtain rfl := Option.isNone_iff_eq_none.mp untexted
          refine .branch label (NodeKind.tokensAt_of_admits admitted) fun child member => ?_
          exact ih child member fun leaf leafMember =>
            stands leaf (mem_leaves_branch kind member leafMember)

/-- An accepted query has a legible tree, which is no token. -/
theorem legible_of_parse {settings : Settings} {query : String} {tree : Node}
    (accepted : parse settings query = .ok tree) :
    tree.Legible ∧ tree.kind.isToken = false := by
  obtain ⟨tokens, cut, parsed⟩ := parse_eq_ok_iff.mp accepted
  obtain ⟨operands, read, rfl⟩ := parseTokens_eq_ok_iff.mp parsed
  have written := readTokens_written read
  constructor
  · apply (written.shaped_queryTree settings).legible
    intro leaf member
    obtain ⟨token, tokenMember, same⟩ :=
      (written.retained_queryTree settings).exists_token leaf member
    exact ⟨token, stands_of_readTokens cut read token tokenMember, same⟩
  · exact NodeKind.isToken_eq_false_of_isJunction (Arrangement.isJunction_junction ..)

/-- Queries with the same s-expression have the same tree, whatever their settings are. -/
theorem parse_sexpr_injective {settings otherSettings : Settings} {query other : String}
    {tree twin : Node} (accepted : parse settings query = .ok tree)
    (otherAccepted : parse otherSettings other = .ok twin) (same : tree.sexpr = twin.sexpr) :
    tree = twin := by
  obtain ⟨legible, label⟩ := legible_of_parse accepted
  obtain ⟨twinLegible, twinLabel⟩ := legible_of_parse otherAccepted
  have printed : tree.sexpr.toList ++ [] = twin.sexpr.toList ++ [] := by rw [same]
  exact (legible.distinct twin twinLegible (label.trans twinLabel.symm) [] []
    (.clear .atEnd) (.clear .atEnd) printed).1

/-- A parenthesis and a blank inside a phrase, and a word that spells a label. -/
theorem sexpr_of_spelled_distance :
    let query := "\"a) b\" && DISTANCE * c"
    let other := "\"a) b\" AND DISTANCE * c"
    let printed := "(CONJUNCTION (DEFAULT (PHRASE \"a) b\")) " ++
      "(DEFAULT (PROXIMITY DISTANCE DISTANCE c)))"
    ∃ tree twin, parse .standard query = .ok tree ∧
      parse ⟨.defaultConjunction, false⟩ other = .ok twin ∧
      tree.sexpr = printed ∧ twin.sexpr = printed ∧ tree = twin := by
  intro query other printed
  have characters : query.toList =
      ['\"', 'a', ')', ' ', 'b', '\"', ' ', '&', '&', ' ', 'D', 'I', 'S', 'T', 'A', 'N', 'C', 'E',
        ' ', '*', ' ', 'c'] := String.toList_ofList
  have otherCharacters : other.toList =
      ['\"', 'a', ')', ' ', 'b', '\"', ' ', 'A', 'N', 'D', ' ', 'D', 'I', 'S', 'T', 'A', 'N', 'C',
        'E', ' ', '*', ' ', 'c'] := String.toList_ofList
  have cut : tokenize query = .ok [⟨.phrase, "\"a) b\"", 0, 6⟩, ⟨.ampAmp, "&&", 7, 9⟩,
      ⟨.id, "DISTANCE", 10, 18⟩, ⟨.star, "*", 19, 20⟩, ⟨.id, "c", 21, 22⟩] := by
    rw [tokenize, characters]
    rfl
  have otherCut : tokenize other = .ok [⟨.phrase, "\"a) b\"", 0, 6⟩, ⟨.and, "AND", 7, 10⟩,
      ⟨.id, "DISTANCE", 11, 19⟩, ⟨.star, "*", 20, 21⟩, ⟨.id, "c", 22, 23⟩] := by
    rw [tokenize, otherCharacters]
    rfl
  have accepted : ∃ tree, parse .standard query = .ok tree ∧ tree.sexpr = printed := by
    rw [parse, cut]
    exact ⟨_, rfl, by decide +kernel⟩
  have otherAccepted : ∃ twin, parse ⟨.defaultConjunction, false⟩ other = .ok twin ∧
      twin.sexpr = printed := by
    rw [parse, otherCut]
    exact ⟨_, rfl, by decide +kernel⟩
  obtain ⟨tree, parsed, shown⟩ := accepted
  obtain ⟨twin, otherParsed, otherShown⟩ := otherAccepted
  exact ⟨tree, twin, parsed, otherParsed, shown, otherShown,
    parse_sexpr_injective parsed otherParsed (shown.trans otherShown.symm)⟩

end SearchQuery
