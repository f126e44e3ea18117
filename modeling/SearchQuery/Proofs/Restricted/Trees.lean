import SearchQuery.Proofs.Connective.Runs
import SearchQuery.Proofs.Restricted.Alternatives
import SearchQuery.Proofs.Tree.Nodes
set_option autoImplicit false

/-!
# Trees of alternatives

The tree of alternatives, and the operands that the grammar has for them: those of an alternative
are adjacent, and the first one of each later alternative is divided from what is before it.
Breaking such operands where they are divided gives the alternatives back.
-/

namespace SearchQuery.Restricted

def Sought.toNode : Sought → Node
  | .word leaf => Node.branch (.form .query .term) [leaf.toNode]
  | .phrase leaf => Node.branch (.form .query .phrase) [leaf.toNode]

def Item.toNode (item : Item) : Node :=
  Node.branch (.form .query (if item.excluded then .exclude else .default)) [item.sought.toNode]

/-- A disjunction of a conjunction for each alternative. -/
def queryNode (alternatives : List (List Item)) : Node :=
  Node.branch (.form .query .disjunction)
    (alternatives.map fun items => Node.branch (.form .query .conjunction) (items.map Item.toNode))

section

variable {α : Type}

/-- Adjacent items. The first one has a link of its own. -/
def linkedItems (link : Link) : List α → List (Link × α)
  | [] => []
  | item :: items => (link, item) :: linkedItems .adjacent items

/-- The items of alternatives. The first one has a link of its own. -/
def linked (link : Link) : List (List α) → List (Link × α)
  | [] => []
  | items :: others => linkedItems link items ++ linked .or others

theorem following_linked (items : List α) {others : List (List α)}
    (filled : ∀ group ∈ others, group ≠ []) :
    Arrangement.alternatives.following (linkedItems .adjacent items ++ linked .or others) =
      (items, others) := by
  induction others generalizing items with
  | nil =>
      induction items with
      | nil => rfl
      | cons item items ih =>
          simp only [linkedItems, List.cons_append, Arrangement.following, ih]
          rfl
  | cons group others ihOthers =>
      obtain ⟨groupFilled, othersFilled⟩ := List.forall_mem_cons.mp filled
      induction items with
      | nil =>
          obtain ⟨first, group, rfl⟩ := List.exists_cons_of_ne_nil groupFilled
          simp only [linkedItems, linked, List.nil_append, List.cons_append,
            Arrangement.following, ihOthers group othersFilled]
          rfl
      | cons item items ih =>
          simp only [linkedItems, List.cons_append, Arrangement.following, ih]
          rfl

/-- Alternatives whose items are linked break into the same alternatives again. -/
theorem runs_linked (link : Link) {groups : List (List α)} (filled : ∀ group ∈ groups, group ≠ []) :
    Arrangement.alternatives.runs (linked link groups) = groups := by
  cases groups with
  | nil => rfl
  | cons group others =>
      obtain ⟨groupFilled, othersFilled⟩ := List.forall_mem_cons.mp filled
      obtain ⟨first, group, rfl⟩ := List.exists_cons_of_ne_nil groupFilled
      rw [linked, linkedItems, List.cons_append, Arrangement.runs_cons,
        following_linked group othersFilled]

end

def Sought.test : Sought → Test
  | .word leaf => .term ⟨leaf.kind, leaf.text, List.mem_append_left _ leaf.kind_mem⟩ none none
  | .phrase leaf => .phrase leaf none none

def Item.operand (link : Link) (item : Item) : Operand :=
  .mk link (if item.excluded then .exclude else .none) (.test item.sought.test) none

def operandsOf (link : Link) (alternatives : List (List Item)) : List Operand :=
  (linked link alternatives).map fun item => item.2.operand item.1

theorem Item.toNode_operand (arrangement : Scope → Arrangement) (link : Link) (item : Item) :
    (item.operand link).toNode arrangement .query = item.toNode := by
  obtain ⟨excluded, sought⟩ := item
  rw [operand, Operand.toNode, Body.toNode]
  cases excluded <;> cases sought <;> rfl

theorem linkedNodes_operandsOf (arrangement : Scope → Arrangement) (link : Link)
    (alternatives : List (List Item)) :
    Operand.linkedNodes arrangement .query (operandsOf link alternatives) =
      (linked link alternatives).map fun item => (item.1, item.2.toNode) := by
  rw [Operand.linkedNodes_eq_map, operandsOf, List.map_map]
  refine List.map_congr_left fun item _ => ?_
  exact congrArg (Prod.mk item.1) (Item.toNode_operand arrangement item.1 item.2)

theorem queryTree_operandsOf (fieldConjunction : Bool) (link : Link)
    {alternatives : List (List Item)} (filled : ∀ items ∈ alternatives, items ≠ []) :
    queryTree ⟨.cmis, fieldConjunction⟩ (operandsOf link alternatives) =
      queryNode alternatives := by
  change Arrangement.alternatives.junction .query _ = _
  rw [linkedNodes_operandsOf]
  change Node.branch _ ((Arrangement.alternatives.runs _).map _) = _
  rw [Arrangement.runs_map, runs_linked link filled, List.map_map]
  rfl

end SearchQuery.Restricted
