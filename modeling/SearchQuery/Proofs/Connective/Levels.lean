import Mathlib.Data.List.Forall2
import SearchQuery.Proofs.Connective.Runs
import SearchQuery.Proofs.Tree.Nodes
set_option autoImplicit false

/-!
# Levels of a tree

The operands of a query, of a pair of parentheses and of a field group make a *level*, which a tree
splits into conjunctions. Two arrangements give trees with the same levels, and only the splits
differ.
-/

namespace SearchQuery

namespace Node

mutual
/-- A tree with each level flattened to the list of its operands. -/
def flat : Node → Node
  | mk (.form scope .disjunction) alternatives literal =>
      mk (.form scope .conjunction) ((flatAll alternatives).flatMap children) literal
  | mk kind children literal => mk kind (flatAll children) literal

def flatAll : List Node → List Node
  | [] => []
  | node :: rest => node.flat :: flatAll rest
end

end Node

/-- The operands of a level, flattened each, in the conjunctions that a tree splits them into. -/
structure Level where
  scope : Scope
  conjunctions : List (List Node)

namespace Node

mutual
/-- The levels of a tree, each before those inside its operands. A conjunction of a disjunction is
no level of its own. -/
def levels : Node → List Level
  | mk (.form scope .disjunction) alternatives _ =>
      ⟨scope, (flatAll alternatives).map children⟩ :: levelsWithin alternatives
  | mk (.form scope .conjunction) operands _ => ⟨scope, [flatAll operands]⟩ :: levelsAll operands
  | mk _ children _ => levelsAll children

def levelsAll : List Node → List Level
  | [] => []
  | node :: rest => node.levels ++ levelsAll rest

/-- The levels inside the operands of conjunctions. -/
def levelsWithin : List Node → List Level
  | [] => []
  | mk _ operands _ :: rest => levelsAll operands ++ levelsWithin rest
end

theorem flatAll_eq_map (nodes : List Node) : flatAll nodes = nodes.map flat := by
  induction nodes with
  | nil => rfl
  | cons node rest ih => rw [flatAll, ih, List.map_cons]

theorem levelsAll_eq_flatMap (nodes : List Node) : levelsAll nodes = nodes.flatMap levels := by
  induction nodes with
  | nil => rfl
  | cons node rest ih => rw [levelsAll, ih, List.flatMap_cons]

theorem levelsWithin_eq_flatMap (nodes : List Node) :
    levelsWithin nodes = nodes.flatMap fun node => node.children.flatMap levels := by
  induction nodes with
  | nil => rfl
  | cons node rest ih =>
      obtain ⟨kind, operands, literal⟩ := node
      rw [levelsWithin, ih, levelsAll_eq_flatMap, List.flatMap_cons]
      rfl

theorem flat_branch {kind : NodeKind} {children : List Node}
    (other : ∀ scope, kind ≠ .form scope .disjunction) :
    (branch kind children).flat = branch kind (children.map flat) := by
  rw [branch, flat, flatAll_eq_map]
  · rfl
  · exact other

theorem levels_branch {kind : NodeKind} {children : List Node}
    (noDisjunction : ∀ scope, kind ≠ .form scope .disjunction)
    (noConjunction : ∀ scope, kind ≠ .form scope .conjunction) :
    (branch kind children).levels = children.flatMap levels := by
  rw [branch, levels, levelsAll_eq_flatMap]
  · exact noDisjunction
  · exact noConjunction

theorem children_flat_conjunction (scope : Scope) (operands : List Node) :
    (branch (.form scope .conjunction) operands).flat.children = operands.map flat := by
  rw [flat_branch (by simp)]
  rfl

def flatItems (items : List (Link × Node)) : List (Link × Node) :=
  items.map fun item => (item.1, item.2.flat)

theorem map_snd_flatItems (items : List (Link × Node)) :
    (flatItems items).map Prod.snd = (items.map Prod.snd).map flat := by
  rw [flatItems, List.map_map, List.map_map]
  rfl

end Node

namespace Arrangement

theorem flat_junction (arrangement : Arrangement) (scope : Scope) (items : List (Link × Node)) :
    (arrangement.junction scope items).flat =
      Node.branch (.form scope .conjunction) ((Node.flatItems items).map Prod.snd) := by
  rw [Node.map_snd_flatItems]
  rcases arrangement.junction_cases scope items with ⟨_, _, same⟩ | ⟨_, same⟩
  · rw [same, Node.flat_branch (by simp)]
  · rw [same, Node.branch, Node.flat, Node.flatAll_eq_map, List.map_map, List.flatMap_map]
    simp only [Function.comp_apply, Node.children_flat_conjunction]
    rw [List.flatMap_def, ← List.map_flatten, arrangement.flatten_runs]
    rfl

/-- The level of a junction, and the levels inside its operands. -/
theorem levels_junction (arrangement : Arrangement) (scope : Scope) (items : List (Link × Node)) :
    (arrangement.junction scope items).levels =
      ⟨scope, arrangement.runs (Node.flatItems items)⟩ ::
        (items.map Prod.snd).flatMap Node.levels := by
  rw [Node.flatItems, arrangement.runs_map]
  rcases arrangement.junction_cases scope items with ⟨_, single, same⟩ | ⟨_, same⟩
  · rw [same, single, Node.branch, Node.levels, Node.levelsAll_eq_flatMap, Node.flatAll_eq_map]
    rfl
  · have inner : ((arrangement.runs items).map (Node.branch (.form scope .conjunction))).flatMap
          (fun conjunction => conjunction.children.flatMap Node.levels) =
        (items.map Prod.snd).flatMap Node.levels := by
      rw [← arrangement.flatten_runs items, List.flatten_eq_flatMap, List.flatMap_assoc,
        List.flatMap_map]
      rfl
    rw [same, Node.branch, Node.levels, Node.levelsWithin_eq_flatMap, Node.flatAll_eq_map, inner]
    simp only [List.map_map, Function.comp_def, Node.children_flat_conjunction]

end Arrangement

/-!
## Tests have no levels
-/

@[simp] theorem Leaf.levels_toNode {kinds : List TokenKind} (leaf : Leaf kinds) :
    leaf.toNode.levels = [] := rfl

@[simp] theorem Closure.levels_toNode (closure : Closure) : closure.toNode.levels = [] := by
  cases closure <;> rfl

@[simp] theorem FieldReference.levels_toNode (field : FieldReference) :
    field.toNode.levels = [] := by
  have qualifier (qualifier : Qualifier) : qualifier.toNode.levels = [] := by
    cases qualifier <;> rfl
  simp [FieldReference.toNode, Node.levels_branch, qualifier]

namespace Test

theorem levels_qualifiers {kinds : List TokenKind} (field : Option FieldReference)
    (loosening : Option (Leaf kinds)) : (qualifiers field loosening).flatMap Node.levels = [] := by
  simp [qualifiers, Node.levels_branch]

theorem levels_stepNodes (step : Option WholeNumber × PlainWord) :
    (stepNodes step).flatMap Node.levels = [] := by
  simp [stepNodes, Node.levels_branch]

theorem levels_toNode (scope : Scope) (test : Test) : (test.toNode scope).levels = [] := by
  cases test with
  | term | exactTerm | synonym | phrase | exactPhrase =>
      rw [toNode, Node.levels_branch (by simp) (by simp), List.flatMap_cons, levels_qualifiers]
      rfl
  | range => simp [toNode, Node.levels_branch]
  | proximity =>
      rw [toNode, Node.levels_branch (by simp) (by simp), List.flatMap_cons, List.flatMap_assoc]
      simp only [levels_stepNodes, Leaf.levels_toNode, List.nil_append]
      exact List.flatMap_eq_nil_iff.mpr fun _ _ => rfl
  | template => simp [toNode, Node.levels_branch]

end Test

/-!
## Two arrangements of the same operands
-/

/-- Two splits of the same operands, each where an arrangement breaks their links. -/
inductive Level.Paired (left right : Scope → Arrangement) : Level → Level → Prop where
  | mk (scope : Scope) (items : List (Link × Node)) :
      Paired left right ⟨scope, (left scope).runs items⟩ ⟨scope, (right scope).runs items⟩

section

variable (left right : Scope → Arrangement)

theorem Sign.form_ne_junction (sign : Sign) (scope inner : Scope) :
    NodeKind.form scope sign.form ≠ .form inner .disjunction ∧
      NodeKind.form scope sign.form ≠ .form inner .conjunction := by
  cases sign <;> simp [Sign.form]

mutual
/-- The flattened node of an operand is the same in every arrangement. -/
theorem Operand.flat_toNode (scope : Scope) (operand : Operand) :
    (operand.toNode left scope).flat = (operand.toNode right scope).flat := by
  match operand with
  | .mk link sign body boost =>
      have signed (inner : Scope) := (sign.form_ne_junction scope inner).1
      rw [Operand.toNode, Operand.toNode, Node.flat_branch signed, Node.flat_branch signed,
        List.map_cons, List.map_cons, Body.flat_toNode scope body]

theorem Body.flat_toNode (scope : Scope) (body : Body) :
    (body.toNode left scope).flat = (body.toNode right scope).flat := by
  match body with
  | .test test => rw [Body.toNode, Body.toNode]
  | .group operands =>
      rw [Body.toNode, Body.toNode, Arrangement.flat_junction, Arrangement.flat_junction,
        Operand.flatItems_linkedNodes scope operands]
  | .fieldGroup field operands =>
      rw [Body.toNode, Body.toNode, Node.flat_branch (by simp), Node.flat_branch (by simp)]
      simp only [List.map_cons, Arrangement.flat_junction,
        Operand.flatItems_linkedNodes .fieldGroup operands]

theorem Operand.flatItems_linkedNodes (scope : Scope) (operands : List Operand) :
    Node.flatItems (Operand.linkedNodes left scope operands) =
      Node.flatItems (Operand.linkedNodes right scope operands) := by
  match operands with
  | [] => rfl
  | .mk link sign body boost :: rest =>
      have first := Operand.flat_toNode scope (.mk link sign body boost)
      have later := Operand.flatItems_linkedNodes scope rest
      rw [Operand.linkedNodes, Operand.linkedNodes]
      simp only [Node.flatItems, List.map_cons] at later ⊢
      rw [first, later]
end

theorem Operand.paired_junction (scope : Scope) {operands : List Operand}
    (inner : List.Forall₂ (Level.Paired left right)
      (((Operand.linkedNodes left scope operands).map Prod.snd).flatMap Node.levels)
      (((Operand.linkedNodes right scope operands).map Prod.snd).flatMap Node.levels)) :
    List.Forall₂ (Level.Paired left right)
      ((left scope).junction scope (Operand.linkedNodes left scope operands)).levels
      ((right scope).junction scope (Operand.linkedNodes right scope operands)).levels := by
  rw [Arrangement.levels_junction, Arrangement.levels_junction,
    Operand.flatItems_linkedNodes left right scope operands]
  exact .cons (.mk scope _) inner

mutual
/-- The trees of an operand in two arrangements have the same levels, up to their splits. -/
theorem Operand.paired_toNode (scope : Scope) (operand : Operand) :
    List.Forall₂ (Level.Paired left right) (operand.toNode left scope).levels
      (operand.toNode right scope).levels := by
  match operand with
  | .mk link sign body boost =>
      have noDisjunction (inner : Scope) := (sign.form_ne_junction scope inner).1
      have noConjunction (inner : Scope) := (sign.form_ne_junction scope inner).2
      have boostLevels : (boost.toList.map fun factor =>
          Node.branch .boost [factor.toNode]).flatMap Node.levels = [] := by
        simp [Node.levels_branch]
      rw [Operand.toNode, Operand.toNode, Node.levels_branch noDisjunction noConjunction,
        Node.levels_branch noDisjunction noConjunction, List.flatMap_cons, List.flatMap_cons,
        boostLevels, List.append_nil, List.append_nil]
      exact Body.paired_toNode scope body

theorem Body.paired_toNode (scope : Scope) (body : Body) :
    List.Forall₂ (Level.Paired left right) (body.toNode left scope).levels
      (body.toNode right scope).levels := by
  match body with
  | .test test =>
      rw [Body.toNode, Body.toNode, test.levels_toNode]
      exact .nil
  | .group operands =>
      rw [Body.toNode, Body.toNode]
      exact Operand.paired_junction left right scope (Operand.paired_linkedNodes scope operands)
  | .fieldGroup field operands =>
      rw [Body.toNode, Body.toNode, Node.levels_branch (by simp) (by simp),
        Node.levels_branch (by simp) (by simp)]
      simp only [List.flatMap_cons, List.flatMap_nil, FieldReference.levels_toNode,
        List.nil_append, List.append_nil]
      exact Operand.paired_junction left right .fieldGroup
        (Operand.paired_linkedNodes .fieldGroup operands)

theorem Operand.paired_linkedNodes (scope : Scope) (operands : List Operand) :
    List.Forall₂ (Level.Paired left right)
      (((Operand.linkedNodes left scope operands).map Prod.snd).flatMap Node.levels)
      (((Operand.linkedNodes right scope operands).map Prod.snd).flatMap Node.levels) := by
  match operands with
  | [] => exact .nil
  | .mk link sign body boost :: rest =>
      rw [Operand.linkedNodes, Operand.linkedNodes]
      exact List.rel_append (Operand.paired_toNode scope (.mk link sign body boost))
        (Operand.paired_linkedNodes scope rest)
end

end

end SearchQuery
