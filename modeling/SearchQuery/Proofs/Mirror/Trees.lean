import SearchQuery.Proofs.Connective.Runs
import SearchQuery.Proofs.Tree.Nodes
import SearchQuery.Proofs.Tree.Places
set_option autoImplicit false

/-!
# Trees in another scope

The labels of operators and tests exist in both scopes, and a tree is moved to a scope by exchanging
them. Operands that name no field have in each scope the tree that they have in the other, moved, as
long as both scopes arrange operands alike.
-/

namespace SearchQuery

/-- The label in a scope. Labels that belong to no scope are kept. -/
def NodeKind.inScope (scope : Scope) : NodeKind → NodeKind
  | form _ role => form scope role
  | kind => kind

namespace Node

mutual
/-- The tree with its operators and tests labelled as in a scope. -/
def inScope (scope : Scope) : Node → Node
  | mk kind children literal => mk (kind.inScope scope) (inScopeAll scope children) literal

def inScopeAll (scope : Scope) : List Node → List Node
  | [] => []
  | node :: rest => node.inScope scope :: inScopeAll scope rest
end

theorem inScopeAll_eq_map (scope : Scope) (nodes : List Node) :
    inScopeAll scope nodes = nodes.map (inScope scope) := by
  induction nodes with
  | nil => rfl
  | cons node rest ih => rw [inScopeAll, ih, List.map_cons]

@[simp] theorem inScope_branch (scope : Scope) (kind : NodeKind) (children : List Node) :
    (branch kind children).inScope scope =
      branch (kind.inScope scope) (children.map (inScope scope)) := by
  rw [branch, inScope, inScopeAll_eq_map, branch]

mutual
theorem inScope_inScope (first second : Scope) (node : Node) :
    (node.inScope first).inScope second = node.inScope second := by
  match node with
  | mk kind children literal =>
      rw [inScope, inScope, inScope, inScopeAll_inScopeAll first second children]
      cases kind <;> rfl

theorem inScopeAll_inScopeAll (first second : Scope) (nodes : List Node) :
    inScopeAll second (inScopeAll first nodes) = inScopeAll second nodes := by
  match nodes with
  | [] => rfl
  | node :: rest =>
      rw [inScopeAll, inScopeAll, inScopeAll, inScope_inScope first second node,
        inScopeAll_inScopeAll first second rest]
end

/-- No label in a tree is one of the inside of a field group. -/
def IsUnscoped (tree : Node) : Prop :=
  tree.Everywhere fun node => node.kind.isFieldScoped = false

mutual
theorem isUnscoped_inScope (node : Node) : (node.inScope .query).IsUnscoped := by
  match node with
  | mk kind children literal =>
      rw [inScope]
      exact .mk (by cases kind <;> rfl) (isUnscoped_inScopeAll children)

theorem isUnscoped_inScopeAll (nodes : List Node) :
    ∀ node ∈ inScopeAll .query nodes, node.IsUnscoped := by
  match nodes with
  | [] => exact List.forall_mem_nil _
  | node :: rest =>
      exact List.forall_mem_cons.mpr ⟨isUnscoped_inScope node, isUnscoped_inScopeAll rest⟩
end

theorem IsUnscoped.inScope_eq {tree : Node} (unscoped : tree.IsUnscoped) :
    tree.inScope .query = tree := by
  induction unscoped with
  | @mk kind children literal here _ ih =>
      have same : kind.inScope .query = kind := by
        cases kind with
        | form scope _ =>
            cases scope with
            | query => rfl
            | fieldGroup => cases here
        | _ => rfl
      rw [inScope, inScopeAll_eq_map, List.map_congr_left ih, List.map_id', same]

/-- Trees of the query are told apart in every scope. -/
theorem IsUnscoped.eq_of_inScope_eq {first second : Node} {scope : Scope}
    (firstUnscoped : first.IsUnscoped) (secondUnscoped : second.IsUnscoped)
    (same : first.inScope scope = second.inScope scope) : first = second := by
  rw [← firstUnscoped.inScope_eq, ← inScope_inScope scope, same, inScope_inScope,
    secondUnscoped.inScope_eq]

end Node

/-!
## Trees of operands
-/

@[simp] theorem Leaf.inScope_toNode {kinds : List TokenKind} (leaf : Leaf kinds) (scope : Scope) :
    leaf.toNode.inScope scope = leaf.toNode := rfl

@[simp] theorem Closure.inScope_toNode (closure : Closure) (scope : Scope) :
    closure.toNode.inScope scope = closure.toNode := by
  cases closure <;> rfl

@[simp] theorem FieldReference.inScope_toNode (field : FieldReference) (scope : Scope) :
    field.toNode.inScope scope = field.toNode := by
  obtain ⟨qualifier, name⟩ := field
  rcases qualifier with _ | ⟨_ | _⟩ <;> rfl

namespace Test

theorem map_inScope_qualifiers {kinds : List TokenKind} (field : Option FieldReference)
    (loosening : Option (Leaf kinds)) (scope : Scope) :
    (qualifiers field loosening).map (Node.inScope scope) = qualifiers field loosening := by
  cases field <;> cases loosening <;> simp [qualifiers, NodeKind.inScope]

theorem map_inScope_stepNodes (step : Option WholeNumber × PlainWord) (scope : Scope) :
    (stepNodes step).map (Node.inScope scope) = stepNodes step := by
  obtain ⟨_ | _, _⟩ := step <;> simp [stepNodes, NodeKind.inScope]

theorem inScope_toNode (test : Test) (first second : Scope) :
    (test.toNode first).inScope second = test.toNode second := by
  cases test with
  | term | exactTerm | synonym | phrase | exactPhrase =>
      simp [toNode, NodeKind.inScope, map_inScope_qualifiers]
  | range => simp [toNode, NodeKind.inScope]
  | proximity =>
      simp [toNode, NodeKind.inScope, List.map_flatMap, map_inScope_stepNodes]
  | template fields =>
      simp [toNode, NodeKind.inScope, Function.comp_def]

end Test

theorem Arrangement.inScope_junction (arrangement : Arrangement) (first second : Scope)
    (items : List (Link × Node)) :
    (arrangement.junction first items).inScope second =
      arrangement.junction second (items.map fun item => (item.1, item.2.inScope second)) := by
  rw [junction, junction, arrangement.runs_map]
  cases arrangement.bareWhenSingle with
  | false => simp [NodeKind.inScope, Function.comp_def]
  | true =>
      rcases arrangement.runs items with _ | ⟨run, _ | _⟩ <;>
        simp [NodeKind.inScope, Function.comp_def]

/-- Operands whose nodes differ in their labels only make junctions that do so too. -/
theorem Operand.inScope_junction {arrangement : Scope → Arrangement} {first second : Scope}
    (alike : arrangement first = arrangement second) {operands : List Operand}
    (same : (operands.map (toNode arrangement first)).map (Node.inScope second) =
      operands.map (toNode arrangement second)) :
    ((arrangement first).junction first (linkedNodes arrangement first operands)).inScope second =
      (arrangement second).junction second (linkedNodes arrangement second operands) := by
  rw [List.map_map, List.map_inj_left] at same
  rw [Arrangement.inScope_junction, alike, linkedNodes_eq_map, linkedNodes_eq_map, List.map_map]
  congr 1
  refine List.map_congr_left fun operand member => ?_
  exact Prod.ext rfl (same operand member)

/-- What is written inside a field group has the same nodes in both scopes, up to their labels. -/
theorem Part.Written.inScope_nodes {arrangement : Scope → Arrangement} {first second : Scope}
    (alike : arrangement first = arrangement second) {part : Part} {tokens : List Token}
    (written : part.Written .fieldGroup tokens) :
    (part.nodes arrangement first).map (Node.inScope second) = part.nodes arrangement second := by
  generalize inside : Scope.fieldGroup = scope at written
  induction written with
  | @operand _ _ _ _ boost _ _ _ _ _ _ ih =>
      have bodySame := List.cons.inj (ih inside)
      simp only [Part.nodes, Operand.toNode, Node.inScope_branch, List.map_cons, List.map_nil,
        bodySame.1]
      cases boost <;> simp [NodeKind.inScope]
  | test =>
      simp only [Part.nodes, Body.toNode, List.map_cons, List.map_nil, Test.inScope_toNode]
  | group _ _ _ ih =>
      simp only [Part.nodes, Body.toNode, List.map_cons, List.map_nil,
        Operand.inScope_junction alike (ih inside)]
  | fieldGroup | fieldSpan => cases inside
  | operands _ _ _ firstIH laterIH =>
      exact List.cons_eq_cons.mpr ⟨(List.cons.inj (firstIH inside)).1, laterIH inside⟩
  | done => rfl
  | later _ _ _ nextIH laterIH =>
      exact List.cons_eq_cons.mpr ⟨(List.cons.inj (nextIH inside)).1, laterIH inside⟩

end SearchQuery
