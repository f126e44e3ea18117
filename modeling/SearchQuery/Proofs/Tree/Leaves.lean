import SearchQuery.Proofs.Accepted
import SearchQuery.Proofs.Tree.Nodes
set_option autoImplicit false

/-!
# Leaves

The leaves of the tree of a query are the tokens of the query, in their order, with some operators
and brackets left out. A tree keeps the field of a word after the word, and the qualifier of a field
name after the name, so its leaves are listed with these two moved to the front.
-/

namespace SearchQuery

namespace TokenKind

/-- The kinds of token that a tree may leave out. -/
def droppable : List TokenKind :=
  [plus, bar, barBar, minus, lparen, rparen, colon, equals, tilde, caret, lsquare, rsquare, lt, gt,
    dotDot, star, atSign, percent, comma, ampAmp, exclamation, and, or, not, upTo]

/-- The kinds of token that a tree may hold. -/
def retainable : List TokenKind :=
  termWords ++ [phrase, uri]

/-- The kinds of token that a tree never leaves out. -/
def indispensable : List TokenKind :=
  [id, word, prefixWord, wildWord, phrase, integer, float, uri, questionMark]

end TokenKind

def Token.signature (token : Token) : TokenKind × String :=
  (token.kind, token.text)

/-- Whether a form holds a word or phrase that may be looked for in a field. -/
def Form.isQualifiable : Form → Bool
  | term | exactTerm | exactPhrase | phrase | synonym => true
  | _ => false

/-- Whether a child is written before what stands in front of it in the tree: the field before the
word or phrase that is looked for in it, and the qualifier before the field name. -/
def NodeKind.isWrittenFirst : NodeKind → NodeKind → Bool
  | form _ role, fieldRef => role.isQualifiable
  | fieldRef, qualifierWord | fieldRef, nameSpace => true
  | _, _ => false

/-- What children stand for, in the order in which they are written. -/
def NodeKind.inSourceOrder {α : Type} (kind : NodeKind) (children : List (NodeKind × α)) :
    List (NodeKind × α) :=
  children.filter (fun child => kind.isWrittenFirst child.1) ++
    children.filter fun child => !kind.isWrittenFirst child.1

theorem NodeKind.mem_inSourceOrder {α : Type} {kind : NodeKind} {children : List (NodeKind × α)}
    {child : NodeKind × α} : child ∈ kind.inSourceOrder children ↔ child ∈ children :=
  (List.filter_append_perm _ _).mem_iff

namespace Node

mutual
/-- The kind and the text of each leaf of a tree, in the order in which they are written. -/
def leaves : Node → List (TokenKind × String)
  | mk (.token kind) _ (some text) => [(kind, text)]
  | mk kind children _ => (kind.inSourceOrder (kindedLeaves children)).flatMap Prod.snd

def kindedLeaves : List Node → List (NodeKind × List (TokenKind × String))
  | [] => []
  | node :: rest => (node.kind, node.leaves) :: kindedLeaves rest
end

end Node

/-- Leaves are what is left of tokens when some that may be left out are crossed out, and those that
are left may stand in a tree. -/
inductive Retained : List Token → List (TokenKind × String) → Prop where
  | nil : Retained [] []
  | keep {token : Token} {tokens : List Token} {leaves : List (TokenKind × String)} :
      token.kind ∈ TokenKind.retainable → Retained tokens leaves →
      Retained (token :: tokens) (token.signature :: leaves)
  | drop {token : Token} {tokens : List Token} {leaves : List (TokenKind × String)} :
      token.kind ∈ TokenKind.droppable → Retained tokens leaves → Retained (token :: tokens) leaves

/-!
## Leaves of nodes
-/

namespace Node

theorem kindedLeaves_eq_map (nodes : List Node) :
    kindedLeaves nodes = nodes.map fun node => (node.kind, node.leaves) := by
  induction nodes with
  | nil => rfl
  | cons node rest ih => rw [kindedLeaves, ih, List.map_cons]

theorem leaves_branch (kind : NodeKind) (children : List Node) :
    (branch kind children).leaves =
      (kind.inSourceOrder (children.map fun child => (child.kind, child.leaves))).flatMap
        Prod.snd := by
  rw [branch, leaves, kindedLeaves_eq_map]
  intro token text same
  simp

theorem mem_leaves_branch (kind : NodeKind) {children : List Node} {child : Node}
    {leaf : TokenKind × String} (member : child ∈ children) (leafMember : leaf ∈ child.leaves) :
    leaf ∈ (branch kind children).leaves := by
  rw [leaves_branch, List.mem_flatMap]
  exact ⟨_, NodeKind.mem_inSourceOrder.mpr (List.mem_map_of_mem member), leafMember⟩

/-- Where no child is written first, the children are written as they stand. -/
theorem leaves_branch_of_unmoved {kind : NodeKind} {children : List Node}
    (unmoved : ∀ child, kind.isWrittenFirst child = false) :
    (branch kind children).leaves = children.flatMap leaves := by
  rw [leaves_branch, NodeKind.inSourceOrder, List.filter_eq_nil_iff.mpr (by simp [unmoved]),
    List.filter_eq_self.mpr (by simp [unmoved]), List.nil_append, List.flatMap_map]

end Node

@[simp] theorem Leaf.leaves_toNode {kinds : List TokenKind} (leaf : Leaf kinds) :
    leaf.toNode.leaves = [(leaf.kind, leaf.text)] := rfl

theorem Arrangement.leaves_junction (arrangement : Arrangement) (scope : Scope)
    (items : List (Link × Node)) :
    (arrangement.junction scope items).leaves = (items.map Prod.snd).flatMap Node.leaves := by
  have conjunction (run : List Node) :
      (Node.branch (.form scope .conjunction) run).leaves = run.flatMap Node.leaves :=
    Node.leaves_branch_of_unmoved (by rintro ⟨⟩ <;> rfl)
  rcases arrangement.junction_cases scope items with ⟨_, _, same⟩ | ⟨_, same⟩
  · rw [same, conjunction]
  · rw [same, Node.leaves_branch_of_unmoved (by rintro ⟨⟩ <;> rfl),
      ← arrangement.flatten_runs items, List.flatten_eq_flatMap, List.flatMap_assoc,
      List.flatMap_map]
    simp only [conjunction, id]

/-- The field comes first, then the word or phrase, and last the number that loosens it. -/
theorem Test.leaves_qualified {scope : Scope} {form : Form} {kinds loose : List TokenKind}
    (qualifiable : form.isQualifiable = true) (word : Leaf kinds) (field : Option FieldReference)
    (number : Option (Leaf loose)) :
    (Node.branch (.form scope form) (word.toNode :: Test.qualifiers field number)).leaves =
      field.toList.flatMap (fun field => field.toNode.leaves) ++
        (word.kind, word.text) :: number.toList.map (fun number => (number.kind, number.text)) := by
  have loosening (number : Leaf loose) :
      (Node.branch .fuzzy [number.toNode]).leaves = [(number.kind, number.text)] := rfl
  rw [Node.leaves_branch]
  cases field <;> cases number <;>
    simp [Test.qualifiers, NodeKind.inSourceOrder, NodeKind.isWrittenFirst, qualifiable, loosening]

/-!
## Retained leaves
-/

namespace Retained

theorem append {front back : List Token} {first second : List (TokenKind × String)}
    (left : Retained front first) (right : Retained back second) :
    Retained (front ++ back) (first ++ second) := by
  induction left with
  | nil => exact right
  | keep kind _ ih => exact .keep kind ih
  | drop kind _ ih => exact .drop kind ih

theorem leaf {kinds : List TokenKind} {leaf : Leaf kinds} {token : Token} {tokens : List Token}
    {leaves : List (TokenKind × String)} (same : leaf.IsOf token)
    (retainable : ∀ kind ∈ kinds, kind ∈ TokenKind.retainable) (rest : Retained tokens leaves) :
    Retained (token :: tokens) ((leaf.kind, leaf.text) :: leaves) := by
  have signature : (leaf.kind, leaf.text) = token.signature := by
    rw [same.kind, same.text, Token.signature]
  rw [signature]
  exact .keep (retainable _ same.kind_mem) rest

theorem exists_token {tokens : List Token} {leaves : List (TokenKind × String)}
    (retained : Retained tokens leaves) :
    ∀ leaf ∈ leaves, ∃ token ∈ tokens, token.signature = leaf := by
  induction retained with
  | nil => simp
  | keep _ _ ih =>
      intro leaf member
      rcases List.mem_cons.mp member with rfl | member
      · exact ⟨_, List.mem_cons_self, rfl⟩
      · obtain ⟨token, tokenMember, same⟩ := ih leaf member
        exact ⟨token, List.mem_cons_of_mem _ tokenMember, same⟩
  | drop _ _ ih =>
      intro leaf member
      obtain ⟨token, tokenMember, same⟩ := ih leaf member
      exact ⟨token, List.mem_cons_of_mem _ tokenMember, same⟩

/-- A token that may not be left out is a leaf. -/
theorem filter_indispensable {tokens : List Token} {leaves : List (TokenKind × String)}
    (retained : Retained tokens leaves) :
    leaves.filter (fun leaf => leaf.1 ∈ TokenKind.indispensable) =
      (tokens.map Token.signature).filter (fun leaf => leaf.1 ∈ TokenKind.indispensable) := by
  have disjoint : ∀ kind ∈ TokenKind.droppable, kind ∉ TokenKind.indispensable := by decide
  induction retained with
  | nil => rfl
  | keep _ _ ih => rw [List.map_cons, List.filter_cons, List.filter_cons, ih]
  | @drop token tokens leaves kind _ ih =>
      have dispensable : ¬ (token.signature.1 ∈ TokenKind.indispensable) := disjoint _ kind
      rw [List.map_cons, List.filter_cons_of_neg (by simpa using dispensable), ih]

/-- A single ampersand can be neither kept nor left out. -/
theorem kind_ne_amp {tokens : List Token} {leaves : List (TokenKind × String)}
    (retained : Retained tokens leaves) : ∀ token ∈ tokens, token.kind ≠ .amp := by
  have kept : TokenKind.amp ∉ TokenKind.retainable := by decide
  have dropped : TokenKind.amp ∉ TokenKind.droppable := by decide
  induction retained with
  | nil => simp
  | keep kind _ ih => exact List.forall_mem_cons.mpr ⟨fun amp => kept (amp ▸ kind), ih⟩
  | drop kind _ ih => exact List.forall_mem_cons.mpr ⟨fun amp => dropped (amp ▸ kind), ih⟩

end Retained

theorem FieldReference.Bare.retained {field : FieldReference} {tokens : List Token}
    (written : field.Bare tokens) : Retained tokens field.toNode.leaves := by
  cases written with
  | plain nameSame => exact .leaf nameSame (by decide) .nil
  | word wordSame colon nameSame =>
      exact .leaf wordSame (by decide) (.drop (by rw [colon]; decide)
        (.leaf nameSame (by decide) .nil))
  | nameSpace uriSame nameSame =>
      exact .leaf uriSame (by decide) (.leaf nameSame (by decide) .nil)

theorem FieldReference.Written.retained {field : FieldReference} {tokens : List Token}
    (written : field.Written tokens) : Retained tokens field.toNode.leaves := by
  cases written with
  | bare bare => exact bare.retained
  | marked mark bare => exact .drop (by rw [mark]; decide) bare.retained

theorem FieldReference.Qualifying.retained {field : FieldReference} {tokens : List Token}
    (written : field.Qualifying tokens) : Retained tokens field.toNode.leaves := by
  cases written with
  | mk written colon =>
      simpa using written.retained.append (.drop (by rw [colon]; decide) .nil)

theorem QualifierWritten.retained {scope : Scope} {field : Option FieldReference}
    {tokens : List Token} (written : QualifierWritten scope field tokens) :
    Retained tokens (field.toList.flatMap fun field => field.toNode.leaves) := by
  cases written with
  | absent => exact .nil
  | present written => simpa using written.retained

theorem SuffixWritten.retained {mark : TokenKind} {kinds : List TokenKind}
    {number : Option (Leaf kinds)} {tokens : List Token}
    (written : SuffixWritten mark number tokens) (dropped : mark ∈ TokenKind.droppable)
    (retainable : ∀ kind ∈ kinds, kind ∈ TokenKind.retainable) :
    Retained tokens (number.toList.map fun number => (number.kind, number.text)) := by
  cases written with
  | absent => exact .nil
  | present sign numberSame =>
      exact .drop (by rw [sign]; exact dropped) (.leaf numberSame retainable .nil)

namespace Test

theorem DistanceWritten.retained {distance : Option WholeNumber} {tokens : List Token}
    (written : DistanceWritten distance tokens) :
    Retained tokens (Node.branch .distance (distance.toList.map Leaf.toNode)).leaves := by
  cases written with
  | absent => exact .nil
  | unspecified opening closing =>
      exact .drop (by rw [opening]; decide) (.drop (by rw [closing]; decide) .nil)
  | limited opening limitSame closing =>
      exact .drop (by rw [opening]; decide) (.leaf limitSame (by decide)
        (.drop (by rw [closing]; decide) .nil))

theorem StepsWritten.retained {steps : List (Option WholeNumber × PlainWord)}
    {tokens : List Token} (written : StepsWritten steps tokens) :
    Retained tokens ((steps.flatMap stepNodes).flatMap Node.leaves) := by
  induction written with
  | nil => exact .nil
  | cons star distanceWritten wordSame _ ih =>
      have step := distanceWritten.retained.append (.leaf wordSame (by decide) ih)
      exact .drop (by rw [star]; decide) (by simpa [stepNodes] using step)

theorem FieldsWritten.retained {fields : List FieldReference} {tokens : List Token}
    (written : FieldsWritten fields tokens) :
    Retained tokens ((fields.map FieldReference.toNode).flatMap Node.leaves) := by
  induction written with
  | nil => exact .nil
  | cons fieldWritten _ ih => exact fieldWritten.retained.append ih
  | comma fieldWritten comma _ ih =>
      exact fieldWritten.retained.append (.drop (by rw [comma]; decide) ih)

theorem RangeWritten.retained {test : Test} {tokens : List Token} (scope : Scope)
    (written : RangeWritten test tokens) : Retained tokens (test.toNode scope).leaves := by
  cases written with
  | dotted lowSame dots highSame =>
      exact .leaf lowSame (by decide) (.drop (by rw [dots]; decide)
        (.leaf highSame (by decide) .nil))
  | @bracketed lower upper low high _ _ _ _ _ opening lowSame upTo highSame closing =>
      have bounds : (Test.toNode scope (.range lower low high upper)).leaves =
          [(low.kind, low.text), (high.kind, high.text)] := by
        cases lower <;> cases upper <;> rfl
      rw [bounds]
      refine .drop ?opens (.leaf lowSame (by decide) (.drop (by rw [upTo]; decide)
        (.leaf highSame (by decide) (.drop ?closes .nil))))
      case opens => rw [opening]; cases lower <;> decide
      case closes => rw [closing]; cases upper <;> decide

theorem ProximityWritten.retained {test : Test} {tokens : List Token} (scope : Scope)
    (written : ProximityWritten test tokens) : Retained tokens (test.toNode scope).leaves := by
  cases written with
  | mk firstSame stepsWritten _ =>
      rw [Test.toNode, Node.leaves_branch_of_unmoved (by rintro ⟨⟩ <;> rfl)]
      exact .leaf firstSame (by decide) stepsWritten.retained

theorem Written.retained {scope : Scope} {test : Test} {tokens : List Token}
    (written : Test.Written scope test tokens) : Retained tokens (test.toNode scope).leaves := by
  cases written with
  | term qualifier wordSame suffix | phrase qualifier wordSame suffix =>
      rw [Test.toNode, leaves_qualified rfl]
      exact qualifier.retained.append (.leaf wordSame (by decide)
        (suffix.retained (by decide) (by decide)))
  | exactTerm equals qualifier wordSame suffix | exactPhrase equals qualifier wordSame suffix
  | synonym equals qualifier wordSame suffix =>
      rw [Test.toNode, leaves_qualified rfl]
      exact .drop (by rw [equals]; decide) (qualifier.retained.append (.leaf wordSame (by decide)
        (suffix.retained (by decide) (by decide))))
  | span written =>
      cases written with
      | range written => exact written.retained scope
      | proximity written => exact written.retained scope
  | template percent fieldWritten =>
      rw [Test.toNode, Node.leaves_branch_of_unmoved (by rintro ⟨⟩ <;> rfl)]
      exact .drop (by rw [percent]; decide) (by simpa using fieldWritten.retained)
  | templates percent opening fieldsWritten _ closing =>
      rw [Test.toNode, Node.leaves_branch_of_unmoved (by rintro ⟨⟩ <;> rfl)]
      have fields := fieldsWritten.retained.append (.drop (by rw [closing]; decide) .nil)
      refine .drop (by rw [percent]; decide) (.drop (by rw [opening]; decide) ?_)
      simpa using fields

end Test

theorem Operand.leaves_junction (arrangement : Scope → Arrangement) (scope : Scope)
    (operands : List Operand) :
    ((arrangement scope).junction scope
        (Operand.linkedNodes arrangement scope operands)).leaves =
      (operands.map (Operand.toNode arrangement scope)).flatMap Node.leaves := by
  rw [Arrangement.leaves_junction, Operand.linkedNodes_eq_map, List.map_map]
  rfl

theorem Operand.leaves_toNode (arrangement : Scope → Arrangement) (scope : Scope) (link : Link)
    (sign : Sign) (body : Body) (boost : Option Number) :
    (Operand.toNode arrangement scope (.mk link sign body boost)).leaves =
      (body.toNode arrangement scope).leaves ++
        boost.toList.map fun factor => (factor.kind, factor.text) := by
  have factor (number : Number) :
      (Node.branch .boost [number.toNode]).leaves = [(number.kind, number.text)] := rfl
  rw [Operand.toNode, Node.leaves_branch_of_unmoved (by rintro ⟨⟩ <;> cases sign <;> rfl)]
  cases boost <;> simp [factor]

theorem Body.leaves_fieldGroup_ofTest (arrangement : Scope → Arrangement) (scope : Scope)
    (field : FieldReference) (test : Test) :
    (Body.toNode arrangement scope (.fieldGroup field [.ofTest test])).leaves =
      field.toNode.leaves ++ (test.toNode .fieldGroup).leaves := by
  rw [Body.toNode, Node.leaves_branch_of_unmoved (by rintro ⟨⟩ <;> rfl)]
  simp [Operand.leaves_junction, Operand.ofTest, Operand.leaves_toNode, Body.toNode]

theorem Sign.Written.retained {sign : Sign} {tokens : List Token} (written : sign.Written tokens) :
    Retained tokens [] := by
  have dropped : ∀ kind ∈ sign.kinds, kind ∈ TokenKind.droppable := by
    cases sign <;> decide
  cases written with
  | absent => exact .nil
  | present kind => exact .drop (dropped _ kind) .nil

theorem Link.Written.retained {link : Link} {tokens : List Token} (written : link.Written tokens) :
    Retained tokens [] := by
  have dropped : ∀ kind ∈ link.kinds, kind ∈ TokenKind.droppable := by
    cases link <;> decide
  cases written with
  | adjacent => exact .nil
  | operator kind => exact .drop (dropped _ kind) .nil

/-- The nodes of what is written hold the tokens it is written with, whatever the arrangement. -/
theorem Part.Written.retained (arrangement : Scope → Arrangement) {scope : Scope} {part : Part}
    {tokens : List Token} (written : part.Written scope tokens) :
    Retained tokens ((part.nodes arrangement scope).flatMap Node.leaves) := by
  induction written with
  | operand signWritten _ boostWritten ih =>
      rw [Part.nodes, List.flatMap_singleton, Operand.leaves_toNode]
      rw [Part.nodes, List.flatMap_singleton] at ih
      exact (signWritten.retained.append ih).append (boostWritten.retained (by decide) (by decide))
  | test written =>
      rw [Part.nodes, List.flatMap_singleton, Body.toNode]
      exact written.retained
  | group opening _ closing ih =>
      rw [Part.nodes, List.flatMap_singleton, Body.toNode, Operand.leaves_junction]
      have inner := ih.append (.drop (by rw [closing]; decide) .nil)
      exact .drop (by rw [opening]; decide) (by simpa [Part.nodes] using inner)
  | fieldGroup qualifying opening _ closing ih =>
      have inner := ih.append (.drop (by rw [closing]; decide) .nil)
      have whole := qualifying.retained.append (.drop (by rw [opening]; decide) inner)
      rw [Part.nodes, List.flatMap_singleton, Body.toNode,
        Node.leaves_branch_of_unmoved (by rintro ⟨⟩ <;> rfl)]
      simpa [Part.nodes, Operand.leaves_junction] using whole
  | fieldSpan qualifying spanWritten =>
      rw [Part.nodes, List.flatMap_singleton, Body.leaves_fieldGroup_ofTest]
      exact qualifying.retained.append (Test.Written.span spanWritten).retained
  | operands _ _ _ firstIH laterIH => simpa [Part.nodes] using firstIH.append laterIH
  | done => exact .nil
  | later linkWritten _ _ nextIH laterIH =>
      simpa [Part.nodes] using (linkWritten.retained.append nextIH).append laterIH

theorem Part.Written.retained_queryTree (settings : Settings) {operands : List Operand}
    {tokens : List Token} (written : Part.Written .query (.operands operands) tokens) :
    Retained tokens (queryTree settings operands).leaves := by
  rw [queryTree, Operand.leaves_junction]
  exact written.retained (Arrangement.ofSettings settings)

/-- The leaves of a tree, in the order in which they are written, are the tokens of the query
without some of its operators and brackets. No word, phrase, number, name or URI is missing, and a
single ampersand is in no query. -/
theorem parseTokens_leaves {settings : Settings} {tokens : List Token} {tree : Node}
    (accepted : parseTokens settings tokens = .ok tree) :
    Retained tokens tree.leaves ∧
      tree.leaves.filter (fun leaf => leaf.1 ∈ TokenKind.indispensable) =
        (tokens.map Token.signature).filter (fun leaf => leaf.1 ∈ TokenKind.indispensable) ∧
      ∀ token ∈ tokens, token.kind ≠ .amp := by
  obtain ⟨operands, read, rfl⟩ := parseTokens_eq_ok_iff.mp accepted
  have retained := (readTokens_written read).retained_queryTree settings
  exact ⟨retained, retained.filter_indispensable, retained.kind_ne_amp⟩

/-- The tree of `p:f:a~2 OR and`, where the last word is a keyword that joins nothing. -/
theorem leaves_of_qualified_alternatives :
    let tokens : List Token :=
      [⟨.id, "p", 0, 1⟩, ⟨.colon, ":", 1, 2⟩, ⟨.id, "f", 2, 3⟩, ⟨.colon, ":", 3, 4⟩,
        ⟨.id, "a", 4, 5⟩, ⟨.tilde, "~", 5, 6⟩, ⟨.integer, "2", 6, 7⟩, ⟨.or, "OR", 8, 10⟩,
        ⟨.and, "and", 11, 14⟩]
    ∃ tree, parseTokens .standard tokens = .ok tree ∧
      tree.leaves = [(.id, "p"), (.id, "f"), (.id, "a"), (.integer, "2"), (.and, "and")] ∧
      Retained tokens tree.leaves ∧
      tree.leaves.filter (fun leaf => leaf.1 ∈ TokenKind.indispensable) =
        (tokens.map Token.signature).filter (fun leaf => leaf.1 ∈ TokenKind.indispensable) ∧
      ∀ token ∈ tokens, token.kind ≠ .amp := by
  intro tokens
  have accepted : parseTokens .standard tokens = .ok _ := rfl
  exact ⟨_, accepted, rfl, parseTokens_leaves accepted⟩

end SearchQuery
