import SearchQuery.Proofs.Accepted
import SearchQuery.Proofs.Tree.Nodes
import SearchQuery.Proofs.Tree.Places
set_option autoImplicit false

/-!
# Scopes of nodes

The scope of a node can be read off its label. Inside the body of a field group every operator and
test has its label of the inside, and nothing names a field; outside, no label is one of the inside.
The restricted language has no fields at all.
-/

namespace SearchQuery

namespace NodeKind

def isOperatorOrTest : NodeKind → Bool
  | form _ _ | fieldGroup | template => true
  | _ => false

def namesField : NodeKind → Bool
  | fieldGroup | template | fieldRef | qualifierWord | nameSpace => true
  | _ => false

/-- Whether a label may stand in a scope. -/
def fits (scope : Scope) : NodeKind → Prop
  | form inner _ => inner = scope
  | fieldGroup | template | fieldRef | qualifierWord | nameSpace => scope = .query
  | _ => True

/-- The scope of a child of a node: the second child of a field group is its body. -/
def scopeBelow (scope : Scope) : NodeKind → Nat → Scope
  | fieldGroup, 1 => .fieldGroup
  | _, _ => scope

end NodeKind

namespace Node

/-- A place is in the body of a field group: on the way to it, or at it, there is the second child
of a field group. -/
def InFieldBody (root : Node) (place : List Nat) : Prop :=
  ∃ before after group, place = before ++ 1 :: after ∧ root.at? before = some group ∧
    group.kind = .fieldGroup

/-- Every label in a tree may stand in the scope of its place, where the root is in a given
scope. -/
inductive Placed : Scope → Node → Prop where
  | mk {scope : Scope} {kind : NodeKind} {children : List Node} {literal : Option String} :
      kind.fits scope →
      (∀ index child, children[index]? = some child →
        Placed (kind.scopeBelow scope index) child) →
      Placed scope (.mk kind children literal)

namespace Placed

theorem fits {scope : Scope} {node : Node} (placed : Placed scope node) : node.kind.fits scope := by
  cases placed with
  | mk fits _ => exact fits

theorem child {scope : Scope} {node child : Node} {index : Nat} (placed : Placed scope node)
    (found : node.children[index]? = some child) :
    Placed (node.kind.scopeBelow scope index) child := by
  cases placed with
  | mk _ below => exact below index child found

/-- Outside of field groups children are in the scope of their parent. -/
theorem branch {scope : Scope} {kind : NodeKind} {children : List Node} (fits : kind.fits scope)
    (plain : kind ≠ .fieldGroup) (below : ∀ child ∈ children, Placed scope child) :
    Placed scope (Node.branch kind children) := by
  refine .mk fits fun index child found => ?_
  have same : kind.scopeBelow scope index = scope := by
    unfold NodeKind.scopeBelow
    split
    · exact absurd rfl plain
    · rfl
  rw [same]
  exact below child (List.mem_of_getElem? found)

theorem fieldGroup {field body : Node} (fieldPlaced : Placed .query field)
    (bodyPlaced : Placed .fieldGroup body) :
    Placed .query (Node.branch .fieldGroup [field, body]) := by
  refine .mk rfl fun index child found => ?_
  match index with
  | 0 =>
      cases found
      exact fieldPlaced
  | 1 =>
      cases found
      exact bodyPlaced
  | index + 2 => cases found

/-- Whatever is below a node in the body of a field group is in that body too. -/
theorem at?_of_fieldGroup {root node : Node} {place : List Nat} (placed : Placed .fieldGroup root)
    (found : root.at? place = some node) : Placed .fieldGroup node := by
  induction place generalizing root with
  | nil =>
      cases found
      exact placed
  | cons index place ih =>
      obtain ⟨child, childAt, foundBelow⟩ := at?_cons_eq_some_iff.mp found
      have same : root.kind.scopeBelow .fieldGroup index = .fieldGroup := by
        unfold NodeKind.scopeBelow
        split <;> rfl
      exact ih (same ▸ placed.child childAt) foundBelow

end Placed

theorem not_inFieldBody_nil (root : Node) : ¬ root.InFieldBody [] := by
  rintro ⟨before, after, group, split, _⟩
  simp at split

theorem inFieldBody_cons_iff {root child : Node} {index : Nat} {place : List Nat}
    (childAt : root.children[index]? = some child) :
    root.InFieldBody (index :: place) ↔
      (root.kind = .fieldGroup ∧ index = 1) ∨ child.InFieldBody place := by
  constructor
  · rintro ⟨before, after, group, split, found, kind⟩
    cases before with
    | nil =>
        cases split
        cases found
        exact .inl ⟨kind, rfl⟩
    | cons first before =>
        cases split
        obtain ⟨other, otherAt, foundBelow⟩ := at?_cons_eq_some_iff.mp found
        cases childAt.symm.trans otherAt
        exact .inr ⟨before, after, group, rfl, foundBelow, kind⟩
  · rintro (⟨kind, rfl⟩ | ⟨before, after, group, rfl, found, kind⟩)
    · exact ⟨[], place, root, rfl, rfl, kind⟩
    · exact ⟨index :: before, after, group, rfl,
        at?_cons_eq_some_iff.mpr ⟨child, childAt, found⟩, kind⟩

/-- Each place is either in the body of a field group, and then its node is placed there, or it is
in none, and its node is placed in the query. -/
theorem Placed.at? {root node : Node} {place : List Nat} (placed : Placed .query root)
    (found : root.at? place = some node) :
    (root.InFieldBody place ∧ Placed .fieldGroup node) ∨
      (¬ root.InFieldBody place ∧ Placed .query node) := by
  induction place generalizing root with
  | nil =>
      cases found
      exact .inr ⟨not_inFieldBody_nil _, placed⟩
  | cons index place ih =>
      obtain ⟨child, childAt, foundBelow⟩ := at?_cons_eq_some_iff.mp found
      have childPlaced := placed.child childAt
      rw [inFieldBody_cons_iff childAt]
      -- Only the step into the second child of a field group leaves the scope of the query.
      by_cases body : root.kind = .fieldGroup ∧ index = 1
      · obtain ⟨kind, rfl⟩ := body
        rw [kind] at childPlaced
        exact .inl ⟨.inl ⟨kind, rfl⟩, childPlaced.at?_of_fieldGroup foundBelow⟩
      · have same : root.kind.scopeBelow .query index = .query := by
          unfold NodeKind.scopeBelow
          split
          · next kind => exact absurd ⟨kind, rfl⟩ body
          · rfl
        rw [same] at childPlaced
        rcases ih childPlaced foundBelow with ⟨inside, nodePlaced⟩ | ⟨outside, nodePlaced⟩
        · exact .inl ⟨.inr inside, nodePlaced⟩
        · exact .inr ⟨fun inside => inside.elim body outside, nodePlaced⟩

end Node

theorem NodeKind.isFieldScoped_iff_of_fits_fieldGroup {kind : NodeKind}
    (fits : kind.fits .fieldGroup) :
    kind.isFieldScoped = kind.isOperatorOrTest ∧ kind.namesField = false ∧
      ∀ role, kind ≠ .form .query role := by
  cases kind with
  | form scope role =>
      cases fits
      exact ⟨rfl, rfl, by simp⟩
  | fieldGroup | template | fieldRef | qualifierWord | nameSpace => cases fits
  | _ => exact ⟨rfl, rfl, by simp⟩

theorem NodeKind.isFieldScoped_eq_false_of_fits_query {kind : NodeKind} (fits : kind.fits .query) :
    kind.isFieldScoped = false := by
  cases kind with
  | form scope role =>
      cases fits
      rfl
  | _ => rfl

/-!
## Nodes of tests
-/

theorem Leaf.placed {kinds : List TokenKind} (leaf : Leaf kinds) (scope : Scope) :
    leaf.toNode.Placed scope :=
  .mk trivial (by simp)

theorem Leaf.placed_holder {kinds : List TokenKind} {scope : Scope} {label : NodeKind}
    (leaf : Leaf kinds) (fits : label.fits scope) (plain : label ≠ .fieldGroup) :
    (Node.branch label [leaf.toNode]).Placed scope :=
  .branch fits plain (List.forall_mem_singleton.mpr (leaf.placed scope))

theorem FieldReference.placed (field : FieldReference) : field.toNode.Placed .query := by
  obtain ⟨qualifier, name⟩ := field
  refine .branch rfl (by simp) (List.forall_mem_cons.mpr ⟨name.placed .query, ?_⟩)
  cases qualifier with
  | none => simp
  | some qualifier =>
      cases qualifier with
      | word word =>
          exact List.forall_mem_singleton.mpr (word.placed_holder rfl (by simp))
      | nameSpace uri =>
          exact List.forall_mem_singleton.mpr (uri.placed_holder rfl (by simp))

namespace Test

theorem placed_qualified {scope : Scope} {form : Form} {kinds loose : List TokenKind}
    {tokens : List Token} {field : Option FieldReference}
    (written : QualifierWritten scope field tokens) (word : Leaf kinds)
    (number : Option (Leaf loose)) :
    (Node.branch (.form scope form) (word.toNode :: qualifiers field number)).Placed scope := by
  refine .branch rfl (by simp) (List.forall_mem_cons.mpr ⟨word.placed scope, ?_⟩)
  have fuzzy (number : Leaf loose) : (Node.branch .fuzzy [number.toNode]).Placed scope :=
    number.placed_holder trivial (by simp)
  cases written with
  | absent => cases number <;> simp [qualifiers, fuzzy]
  | present _ => cases number <;> simp [qualifiers, fuzzy, FieldReference.placed]

theorem RangeWritten.placed {test : Test} {tokens : List Token} (scope : Scope)
    (written : RangeWritten test tokens) : (test.toNode scope).Placed scope := by
  have closure (closure : Closure) : closure.toNode.Placed scope := by
    cases closure <;> exact .branch trivial (by simp) (by simp)
  cases written with
  | dotted | bracketed => exact .branch rfl (by simp) (by simp [closure, Leaf.placed])

theorem ProximityWritten.placed {test : Test} {tokens : List Token} (scope : Scope)
    (written : ProximityWritten test tokens) : (test.toNode scope).Placed scope := by
  have distance (limit : Option WholeNumber) :
      (Node.branch .distance (limit.toList.map Leaf.toNode)).Placed scope :=
    .branch trivial (by simp) (by simp [Leaf.placed])
  cases written with
  | mk _ _ _ =>
      refine .branch rfl (by simp) (List.forall_mem_cons.mpr ⟨Leaf.placed _ scope, ?_⟩)
      intro child member
      obtain ⟨step, _, childOf⟩ := List.mem_flatMap.mp member
      simp only [stepNodes, List.mem_cons, List.not_mem_nil, or_false] at childOf
      rcases childOf with rfl | rfl
      · exact distance step.1
      · exact step.2.placed scope

theorem placed_template (fields : List FieldReference) :
    (Test.toNode .query (.template fields)).Placed .query :=
  .branch rfl (by simp) (List.forall_mem_map.mpr fun field _ => field.placed)

theorem Written.placed {scope : Scope} {test : Test} {tokens : List Token}
    (written : Test.Written scope test tokens) : (test.toNode scope).Placed scope := by
  cases written with
  | term qualifier _ _ | phrase qualifier _ _ | exactTerm _ qualifier _ _
  | exactPhrase _ qualifier _ _ | synonym _ qualifier _ _ => exact placed_qualified qualifier _ _
  | span written =>
      cases written with
      | range written => exact written.placed scope
      | proximity written => exact written.placed scope
  | template _ _ => exact placed_template _
  | templates _ _ _ _ _ => exact placed_template _

end Test

/-!
## Nodes of operands
-/

theorem Arrangement.placed_junction (arrangement : Arrangement) {scope : Scope}
    {items : List (Link × Node)} (placed : ∀ node ∈ items.map Prod.snd, node.Placed scope) :
    (arrangement.junction scope items).Placed scope :=
  arrangement.junction_of placed (fun _ below => .branch rfl (by simp) below)
    fun _ below => .branch rfl (by simp) below

theorem Operand.placed_junction {arrangement : Scope → Arrangement} {scope : Scope}
    {operands : List Operand}
    (placed : ∀ operand ∈ operands, (operand.toNode arrangement scope).Placed scope) :
    ((arrangement scope).junction scope
      (Operand.linkedNodes arrangement scope operands)).Placed scope := by
  rw [Operand.linkedNodes_eq_map]
  exact Arrangement.placed_junction _ (by simpa using placed)

theorem Operand.placed_toNode {arrangement : Scope → Arrangement} {scope : Scope} {link : Link}
    {sign : Sign} {body : Body} (boost : Option Number)
    (placed : (body.toNode arrangement scope).Placed scope) :
    (Operand.toNode arrangement scope (.mk link sign body boost)).Placed scope := by
  rw [Operand.toNode]
  refine .branch rfl (by simp) (List.forall_mem_cons.mpr ⟨placed, ?_⟩)
  have boostPlaced (factor : Number) : (Node.branch .boost [factor.toNode]).Placed scope :=
    factor.placed_holder trivial (by simp)
  cases boost <;> simp [boostPlaced]

theorem Body.placed_fieldGroup {arrangement : Scope → Arrangement} {field : FieldReference}
    {operands : List Operand}
    (placed : ∀ operand ∈ operands, (operand.toNode arrangement .fieldGroup).Placed .fieldGroup) :
    (Body.toNode arrangement .query (.fieldGroup field operands)).Placed .query := by
  rw [Body.toNode]
  exact .fieldGroup field.placed (Operand.placed_junction placed)

theorem Part.Written.placed (arrangement : Scope → Arrangement) {scope : Scope} {part : Part}
    {tokens : List Token} (written : part.Written scope tokens) :
    ∀ node ∈ part.nodes arrangement scope, node.Placed scope := by
  induction written with
  | operand _ _ _ ih =>
      have body := List.forall_mem_singleton.mp ih
      exact List.forall_mem_singleton.mpr (Operand.placed_toNode _ body)
  | test written =>
      refine List.forall_mem_singleton.mpr ?_
      rw [Body.toNode]
      exact written.placed
  | group _ _ _ ih =>
      refine List.forall_mem_singleton.mpr ?_
      rw [Body.toNode]
      exact Operand.placed_junction (List.forall_mem_map.mp ih)
  | fieldGroup _ _ _ _ ih =>
      exact List.forall_mem_singleton.mpr (Body.placed_fieldGroup (List.forall_mem_map.mp ih))
  | fieldSpan _ written =>
      refine List.forall_mem_singleton.mpr (Body.placed_fieldGroup ?_)
      refine List.forall_mem_singleton.mpr (Operand.placed_toNode none ?_)
      rw [Body.toNode]
      exact (Test.Written.span written).placed
  | operands _ _ _ firstIH laterIH =>
      exact List.forall_mem_cons.mpr ⟨List.forall_mem_singleton.mp firstIH, laterIH⟩
  | done => exact List.forall_mem_nil _
  | later _ _ _ nextIH laterIH =>
      exact List.forall_mem_cons.mpr ⟨List.forall_mem_singleton.mp nextIH, laterIH⟩

/-!
## The restricted language
-/

def Node.IsFieldless (node : Node) : Prop :=
  node.kind.isFieldScoped = false ∧ node.kind.namesField = false

theorem Operand.Plain.fieldless {operand : Operand} (plain : operand.Plain)
    (arrangement : Scope → Arrangement) :
    (operand.toNode arrangement .query).Everywhere Node.IsFieldless := by
  have leaf {kinds : List TokenKind} (leaf : Leaf kinds) :
      leaf.toNode.Everywhere Node.IsFieldless :=
    .mk ⟨rfl, rfl⟩ (by simp)
  have test {test : Test} (plain : test.Plain) :
      (test.toNode .query).Everywhere Node.IsFieldless := by
    cases plain with
    | term => exact .branch ⟨rfl, rfl⟩ (by simp [Test.qualifiers, leaf])
    | phrase => exact .branch ⟨rfl, rfl⟩ (by simp [Test.qualifiers, leaf])
  cases plain with
  | default plain =>
      rw [Operand.toNode, Body.toNode]
      exact .branch ⟨rfl, rfl⟩ (List.forall_mem_singleton.mpr (test plain))
  | exclude plain =>
      rw [Operand.toNode, Body.toNode]
      exact .branch ⟨rfl, rfl⟩ (List.forall_mem_singleton.mpr (test plain))

theorem Arrangement.fieldless_junction (arrangement : Arrangement) {items : List (Link × Node)}
    (fieldless : ∀ node ∈ items.map Prod.snd, node.Everywhere Node.IsFieldless) :
    (arrangement.junction .query items).Everywhere Node.IsFieldless :=
  arrangement.junction_of fieldless (fun _ below => .branch ⟨rfl, rfl⟩ below)
    fun _ below => .branch ⟨rfl, rfl⟩ below

/-- A label is one of the inside exactly where an operator or a test stands in the body of a field
group. No field is named in such a body, and no label of the outside stands there. The restricted
language has neither. -/
theorem parseTokens_scoped {settings : Settings} {tokens : List Token} {tree node : Node}
    {place : List Nat} (accepted : parseTokens settings tokens = .ok tree)
    (found : tree.at? place = some node) :
    (node.kind.isFieldScoped = true ↔
      tree.InFieldBody place ∧ node.kind.isOperatorOrTest = true) ∧
    (tree.InFieldBody place →
      node.kind.namesField = false ∧ ∀ role, node.kind ≠ .form .query role) ∧
    (settings.mode = .cmis → node.kind.isFieldScoped = false ∧ node.kind.namesField = false) := by
  obtain ⟨operands, read, rfl⟩ := parseTokens_eq_ok_iff.mp accepted
  have written := readTokens_written read
  have placed : (queryTree settings operands).Placed .query :=
    Operand.placed_junction (List.forall_mem_map.mp (written.placed _))
  have restricted (cmis : settings.mode = .cmis) : node.IsFieldless := by
    rw [cmis] at read
    have plain := readTokens_plain read
    have fieldless : ∀ item ∈ operands,
        (item.toNode (Arrangement.ofSettings settings) .query).Everywhere Node.IsFieldless :=
      fun item member => (plain item member).fieldless _
    have everywhere : (queryTree settings operands).Everywhere Node.IsFieldless := by
      rw [queryTree, Operand.linkedNodes_eq_map]
      exact Arrangement.fieldless_junction _ (by simpa using fieldless)
    exact everywhere.at? found
  rcases placed.at? found with ⟨inside, nodePlaced⟩ | ⟨outside, nodePlaced⟩
  · obtain ⟨ofInside, unnamed, inner⟩ :=
      NodeKind.isFieldScoped_iff_of_fits_fieldGroup nodePlaced.fits
    exact ⟨by simp [inside, ofInside], fun _ => ⟨unnamed, inner⟩, restricted⟩
  · have unscoped := NodeKind.isFieldScoped_eq_false_of_fits_query nodePlaced.fits
    exact ⟨by simp [outside, unscoped], fun inside => absurd inside outside, restricted⟩

/-- The first word in the tree of `f:(a b)`. -/
theorem scope_of_grouped_word :
    let tokens : List Token :=
      [⟨.id, "f", 0, 1⟩, ⟨.colon, ":", 1, 2⟩, ⟨.lparen, "(", 2, 3⟩, ⟨.id, "a", 3, 4⟩,
        ⟨.id, "b", 5, 6⟩, ⟨.rparen, ")", 6, 7⟩]
    ∃ tree node, parseTokens .standard tokens = .ok tree ∧
      tree.at? [0, 0, 1, 0, 0] = some node ∧ node.kind = .form .fieldGroup .term ∧
      (node.kind.isFieldScoped = true ↔
        tree.InFieldBody [0, 0, 1, 0, 0] ∧ node.kind.isOperatorOrTest = true) ∧
      (tree.InFieldBody [0, 0, 1, 0, 0] →
        node.kind.namesField = false ∧ ∀ role, node.kind ≠ .form .query role) ∧
      (Settings.standard.mode = .cmis →
        node.kind.isFieldScoped = false ∧ node.kind.namesField = false) := by
  intro tokens
  have accepted : parseTokens .standard tokens = .ok _ := rfl
  exact ⟨_, _, accepted, rfl, rfl, parseTokens_scoped accepted rfl⟩

end SearchQuery
