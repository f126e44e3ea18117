import SearchQuery.Tree
set_option autoImplicit false

/-!
# Places in trees

A place in a tree is the list of child positions that leads to it from the root. Equal nodes may
stand at different places, so what is said of the nodes of a tree is said of its places.
-/

namespace SearchQuery.Node

/-- The node at a place. -/
def at? (root : Node) : List Nat → Option Node
  | [] => some root
  | index :: place => root.children[index]?.bind fun child => child.at? place

theorem at?_cons_eq_some_iff {root node : Node} {index : Nat} {place : List Nat} :
    root.at? (index :: place) = some node ↔
      ∃ child, root.children[index]? = some child ∧ child.at? place = some node := by
  rw [at?, Option.bind_eq_some_iff]

/-- A property holds of every node of a tree. -/
inductive Everywhere (property : Node → Prop) : Node → Prop where
  | mk {kind : NodeKind} {children : List Node} {literal : Option String} :
      property (.mk kind children literal) → (∀ child ∈ children, Everywhere property child) →
      Everywhere property (.mk kind children literal)

namespace Everywhere

variable {property : Node → Prop}

theorem branch {kind : NodeKind} {children : List Node} (here : property (branch kind children))
    (below : ∀ child ∈ children, Everywhere property child) :
    Everywhere property (Node.branch kind children) :=
  .mk here below

theorem at? {root node : Node} (everywhere : Everywhere property root) {place : List Nat}
    (found : root.at? place = some node) : property node := by
  induction place generalizing root with
  | nil =>
      cases found
      cases everywhere with
      | mk here _ => exact here
  | cons index place ih =>
      obtain ⟨child, childAt, foundBelow⟩ := at?_cons_eq_some_iff.mp found
      cases everywhere with
      | mk _ below => exact ih (below child (List.mem_of_getElem? childAt)) foundBelow

theorem here {node : Node} (everywhere : Everywhere property node) : property node := by
  cases everywhere with
  | mk here _ => exact here

theorem child {node child : Node} (everywhere : Everywhere property node)
    (member : child ∈ node.children) : Everywhere property child := by
  cases everywhere with
  | mk _ below => exact below child member

theorem imp {other : Node → Prop} {node : Node} (everywhere : Everywhere property node)
    (weaker : ∀ node, property node → other node) : Everywhere other node := by
  induction everywhere with
  | mk here _ ih => exact .mk (weaker _ here) ih

end Everywhere

mutual
/-- Whether a check succeeds on every node of a tree. -/
def every (check : Node → Bool) : Node → Bool
  | mk kind children literal => check (mk kind children literal) && everyOf check children

def everyOf (check : Node → Bool) : List Node → Bool
  | [] => true
  | node :: rest => node.every check && everyOf check rest
end

theorem everyOf_eq_all (check : Node → Bool) (nodes : List Node) :
    everyOf check nodes = nodes.all fun node => node.every check := by
  induction nodes with
  | nil => rfl
  | cons node rest ih => rw [everyOf, ih, List.all_cons]

theorem Everywhere.every_eq_true {check : Node → Bool} {node : Node}
    (everywhere : node.Everywhere fun node => check node = true) : node.every check = true := by
  induction everywhere with
  | mk here _ ih =>
      rw [every, here, Bool.true_and, everyOf_eq_all]
      exact List.all_eq_true.mpr ih

mutual
theorem everywhere_of_every {check : Node → Bool} (node : Node)
    (succeeds : node.every check = true) : node.Everywhere fun node => check node = true := by
  match node with
  | mk kind children literal =>
      obtain ⟨here, below⟩ := Bool.and_eq_true_iff.mp succeeds
      exact .mk here (everywhere_of_everyOf children below)

theorem everywhere_of_everyOf {check : Node → Bool} (nodes : List Node)
    (succeeds : everyOf check nodes = true) :
    ∀ node ∈ nodes, node.Everywhere fun node => check node = true := by
  match nodes with
  | [] => exact List.forall_mem_nil _
  | node :: rest =>
      obtain ⟨here, later⟩ := Bool.and_eq_true_iff.mp succeeds
      exact List.forall_mem_cons.mpr
        ⟨everywhere_of_every node here, everywhere_of_everyOf rest later⟩
end

instance (check : Node → Bool) (node : Node) :
    Decidable (node.Everywhere fun node => check node = true) :=
  decidable_of_iff (node.every check = true)
    ⟨everywhere_of_every node, Everywhere.every_eq_true⟩

end SearchQuery.Node
