import SearchQuery.Proofs.Written
import SearchQuery.Query.Tree
set_option autoImplicit false

/-!
# The nodes of parts of a query

The nodes that a part of a query becomes, and the two shapes of a junction. The operands of a
junction are the same whatever the arrangement is; only the conjunctions they stand in differ.
-/

namespace SearchQuery

@[simp] theorem Node.kind_branch (kind : NodeKind) (children : List Node) :
    (branch kind children).kind = kind := rfl

@[simp] theorem Leaf.kind_toNode {kinds : List TokenKind} (leaf : Leaf kinds) :
    leaf.toNode.kind = .token leaf.kind := rfl

@[simp] theorem FieldReference.kind_toNode (field : FieldReference) :
    field.toNode.kind = .fieldRef := rfl

@[simp] theorem Operand.kind_toNode (arrangement : Scope → Arrangement) (scope : Scope)
    (link : Link) (sign : Sign) (body : Body) (boost : Option Number) :
    (Operand.toNode arrangement scope (.mk link sign body boost)).kind = .form scope sign.form := by
  rw [Operand.toNode, Node.kind_branch]

theorem Operand.linkedNodes_cons (arrangement : Scope → Arrangement) (scope : Scope)
    (operand : Operand) (rest : List Operand) :
    Operand.linkedNodes arrangement scope (operand :: rest) =
      (operand.link, operand.toNode arrangement scope) ::
        Operand.linkedNodes arrangement scope rest := by
  obtain ⟨link, sign, body, boost⟩ := operand
  rw [linkedNodes]
  rfl

theorem Operand.linkedNodes_eq_map (arrangement : Scope → Arrangement) (scope : Scope)
    (operands : List Operand) :
    Operand.linkedNodes arrangement scope operands =
      operands.map fun operand => (operand.link, operand.toNode arrangement scope) := by
  induction operands with
  | nil => rfl
  | cons operand rest ih => rw [linkedNodes_cons, ih, List.map_cons]

/-- The nodes of a part of a query. A list of operands has a node for each of them. -/
def Part.nodes (arrangement : Scope → Arrangement) (scope : Scope) : Part → List Node
  | .operand single => [single.toNode arrangement scope]
  | .body held => [held.toNode arrangement scope]
  | .operands several | .later several => several.map (Operand.toNode arrangement scope)

/-- Whether adjacent operands are conjoined in a scope, rather than disjoined. -/
def Settings.conjoins (settings : Settings) : Scope → Bool
  | .query => settings.mode != .defaultDisjunction
  | .fieldGroup => settings.fieldConjunction

namespace Arrangement

theorem ofSettings_of_full {settings : Settings} (full : settings.mode.dialect = .full)
    (scope : Scope) :
    ofSettings settings scope =
      if settings.conjoins scope = true then conjoining else disjoining := by
  obtain ⟨mode, fieldConjunction⟩ := settings
  cases scope with
  | query =>
      cases mode with
      | cmis => cases full
      | defaultConjunction | defaultDisjunction => rfl
  | fieldGroup => rfl

/-- No run is empty, and there is one as soon as there is an item. -/
theorem runs_ne_nil {α : Type} (arrangement : Arrangement) (items : List (Link × α)) :
    (∀ run ∈ arrangement.runs items, run ≠ []) ∧
      (items ≠ [] → arrangement.runs items ≠ []) := by
  fun_induction runs arrangement items with
  | case1 => simp
  | case2 => simp
  | case3 => simp
  | case4 _ item link next rest run others found _ ih =>
      rw [found] at ih
      exact ⟨List.forall_mem_cons.mpr ⟨by simp, ih.1⟩, by simp⟩
  | case5 _ item link next rest run others found _ ih =>
      rw [found] at ih
      exact ⟨List.forall_mem_cons.mpr ⟨by simp, (List.forall_mem_cons.mp ih.1).2⟩, by simp⟩

theorem mem_of_mem_runs {α : Type} (arrangement : Arrangement) {items : List (Link × α)}
    {run : List α} {item : α} (runMember : run ∈ arrangement.runs items) (member : item ∈ run) :
    item ∈ items.map Prod.snd := by
  rw [← arrangement.flatten_runs items]
  exact List.mem_flatten.mpr ⟨run, runMember, member⟩

/-- A junction is a conjunction that stands alone, or a disjunction of conjunctions. -/
theorem junction_cases (arrangement : Arrangement) (scope : Scope) (items : List (Link × Node)) :
    (arrangement.bareWhenSingle = true ∧ arrangement.runs items = [items.map Prod.snd] ∧
      arrangement.junction scope items =
        Node.branch (.form scope .conjunction) (items.map Prod.snd)) ∨
    ((arrangement.bareWhenSingle = true → (arrangement.runs items).length ≠ 1) ∧
      arrangement.junction scope items =
        Node.branch (.form scope .disjunction)
          ((arrangement.runs items).map (Node.branch (.form scope .conjunction)))) := by
  have flat := flatten_runs arrangement items
  unfold junction
  cases arrangement.bareWhenSingle with
  | false => exact .inr ⟨by simp, rfl⟩
  | true =>
      match found : arrangement.runs items with
      | [] => exact .inr ⟨by simp, rfl⟩
      | [run] =>
          rw [found, List.flatten_singleton] at flat
          subst flat
          exact .inl ⟨rfl, rfl, rfl⟩
      | _ :: _ :: _ => exact .inr ⟨by simp, rfl⟩

/-- A property of junctions that goes from the operands of a conjunction to it, and from the
conjunctions of a disjunction to it. -/
theorem junction_of {property : Node → Prop} (arrangement : Arrangement) {scope : Scope}
    {items : List (Link × Node)} (operands : ∀ node ∈ items.map Prod.snd, property node)
    (conjunction : ∀ run : List Node, (∀ node ∈ run, property node) →
      property (Node.branch (.form scope .conjunction) run))
    (disjunction : ∀ alternatives : List Node, (∀ child ∈ alternatives, property child) →
      property (Node.branch (.form scope .disjunction) alternatives)) :
    property (arrangement.junction scope items) := by
  rcases arrangement.junction_cases scope items with ⟨_, _, same⟩ | ⟨_, same⟩
  · rw [same]
    exact conjunction _ operands
  · rw [same]
    refine disjunction _ fun child member => ?_
    obtain ⟨run, runMember, rfl⟩ := List.mem_map.mp member
    exact conjunction run fun node nodeMember =>
      operands node (arrangement.mem_of_mem_runs runMember nodeMember)

end Arrangement

end SearchQuery
