import SearchQuery.Proofs.Connective.Runs
import SearchQuery.Proofs.Spelling.Tests
set_option autoImplicit false

/-!
# Spelled junctions

A junction of a query is that of operands in a row, each behind the first one with an operator. The
operators decide alone which of them stand in one conjunction, and the row is spelled as the
junction is.
-/

namespace SearchQuery

def Link.lexemes : Link → List Lexeme
  | opening | adjacent => []
  | and => [(.ampAmp, "&&")]
  | or => [(.barBar, "||")]

namespace Node

/-- The spelling of operands that follow another one. -/
def laterSpelling (items : List (Link × Node)) : List Lexeme :=
  items.flatMap fun item => item.1.lexemes ++ item.2.spelling

/-- The operands of a conjunction, where the first one has some link. -/
def conjoined (link : Link) : List Node → List (Link × Node)
  | [] => []
  | first :: rest => (link, first) :: rest.map fun node => (.and, node)

/-- The operands of conjunctions that follow another conjunction. -/
def disjoined (runs : List (List Node)) : List (Link × Node) :=
  runs.flatMap (conjoined .or)

end Node

namespace Arrangement

variable (arrangement : Arrangement)

theorem following_conjoined (operands : List Node) (items : List (Link × Node)) :
    arrangement.following ((operands.map fun node => (.and, node)) ++ items) =
      (operands ++ (arrangement.following items).1, (arrangement.following items).2) := by
  induction operands with
  | nil => rfl
  | cons first rest ih =>
      rw [List.map_cons, List.cons_append, following, ih]
      rfl

theorem following_disjoined {runs : List (List Node)} (filled : ∀ run ∈ runs, run ≠ []) :
    arrangement.following (Node.disjoined runs) = ([], runs) := by
  induction runs with
  | nil => rfl
  | cons run runs ih =>
      obtain ⟨first, rest, rfl⟩ := List.exists_cons_of_ne_nil (filled run (by simp))
      have later := ih fun run member => filled run (List.mem_cons_of_mem _ member)
      rw [Node.disjoined, List.flatMap_cons, Node.conjoined, List.cons_append, following]
      rw [Node.disjoined] at later
      rw [following_conjoined, later]
      simp [breaksAt]

/-- Operators alone decide about conjunctions, whatever an arrangement does to adjacent operands. -/
theorem runs_disjoined (first : Node) (operands : List Node) {runs : List (List Node)}
    (filled : ∀ run ∈ runs, run ≠ []) :
    arrangement.runs (Node.conjoined .opening (first :: operands) ++ Node.disjoined runs) =
      (first :: operands) :: runs := by
  rw [Node.conjoined, List.cons_append, runs_cons, following_conjoined,
    arrangement.following_disjoined filled, List.append_nil]

theorem junction_eq_conjunction {scope : Scope} {items : List (Link × Node)} {run : List Node}
    (bare : arrangement.bareWhenSingle = true) (single : arrangement.runs items = [run]) :
    arrangement.junction scope items = Node.branch (.form scope .conjunction) run := by
  rw [junction, bare, single]
  rfl

theorem junction_eq_disjunction {scope : Scope} {items : List (Link × Node)}
    (several : arrangement.bareWhenSingle = true → (arrangement.runs items).length ≠ 1) :
    arrangement.junction scope items =
      Node.branch (.form scope .disjunction)
        ((arrangement.runs items).map (Node.branch (.form scope .conjunction))) := by
  rcases arrangement.junction_cases scope items with ⟨bare, single, _⟩ | ⟨_, same⟩
  · exact absurd (by rw [single]; rfl) (several bare)
  · exact same

end Arrangement

namespace Node

theorem laterSpelling_append (items others : List (Link × Node)) :
    laterSpelling (items ++ others) = laterSpelling items ++ laterSpelling others :=
  List.flatMap_append

theorem intercalate_cons_eq_flatMap {α : Type} (separator first : List α) (rest : List (List α)) :
    separator.intercalate (first :: rest) =
      first ++ rest.flatMap fun part => separator ++ part := by
  induction rest generalizing first with
  | nil => simp
  | cons next rest ih =>
      rw [List.intercalate_cons_cons, ih, List.flatMap_cons]
      simp

theorem spelling_conjunction (scope : Scope) (first : Node) (rest : List Node) :
    (branch (.form scope .conjunction) (first :: rest)).spelling =
      first.spelling ++ laterSpelling (rest.map fun node => (.and, node)) := by
  rw [spelling_branch _ (by simp), NodeKind.spell, Form.spell, spelled, List.map_cons,
    intercalate_cons_eq_flatMap, spelled_eq_map, laterSpelling]
  simp [List.flatMap_map, Link.lexemes]

theorem laterSpelling_conjoined {scope : Scope} {run : List Node} (filled : run ≠ []) :
    laterSpelling (conjoined .or run) =
      (.barBar, "||") :: (branch (.form scope .conjunction) run).spelling := by
  obtain ⟨first, rest, rfl⟩ := List.exists_cons_of_ne_nil filled
  rw [spelling_conjunction, conjoined]
  rfl

theorem laterSpelling_disjoined (scope : Scope) {runs : List (List Node)}
    (filled : ∀ run ∈ runs, run ≠ []) :
    laterSpelling (disjoined runs) = runs.flatMap fun run =>
      [(.barBar, "||")] ++ (branch (.form scope .conjunction) run).spelling := by
  rw [laterSpelling, disjoined, List.flatMap_assoc, List.flatMap_def, List.flatMap_def]
  exact congrArg List.flatten
    (List.map_congr_left fun run member => laterSpelling_conjoined (filled run member))

theorem spelling_disjunction (scope : Scope) (first : Node) (operands : List Node)
    {runs : List (List Node)} (filled : ∀ run ∈ runs, run ≠ []) :
    (branch (.form scope .disjunction)
        (((first :: operands) :: runs).map (branch (.form scope .conjunction)))).spelling =
      first.spelling ++
        laterSpelling ((operands.map fun node => (.and, node)) ++ disjoined runs) := by
  rw [laterSpelling_append, ← List.append_assoc, ← spelling_conjunction scope,
    laterSpelling_disjoined scope filled, List.map_cons, spelling_branch _ (by simp),
    NodeKind.spell, Form.spell, spelled, List.map_cons, intercalate_cons_eq_flatMap,
    spelled_eq_map]
  simp [List.flatMap_map]

end Node

variable {settings : Settings} {tokens : List Token}

/-- What is asked of the node of an operand. -/
structure Node.IsOperandOf (settings : Settings) (scope : Scope) (levels : Nat) (node : Node) :
    Prop where
  signed : node.kind.isSigned scope = true
  spellable : node.Spellable settings
  nesting_le : node.nesting ≤ levels

/-- A conjunction holds operands, whether it stands alone or in a disjunction. -/
theorem Node.exists_operands_of_conjunction {scope : Scope} {levels : Nat} {node : Node}
    (kind : node.kind = .form scope .conjunction)
    (spellable : node.Spellable settings) (nesting_le : node.nesting ≤ levels) :
    ∃ operands, node = branch (.form scope .conjunction) operands ∧ operands ≠ [] ∧
      ∀ child ∈ operands, child.IsOperandOf settings scope levels := by
  obtain ⟨operands, rfl, admitted⟩ := spellable.shaped.exists_branch kind (by simp)
  simp only [NodeKind.admits_form, Form.admits_conjunction, Bool.and_eq_true, Bool.not_eq_true',
    List.isEmpty_eq_false_iff, List.all_eq_true] at admitted
  obtain ⟨nonempty, signed⟩ := admitted
  refine ⟨operands, rfl, nonempty, fun child member => ?_⟩
  exact ⟨signed child member, spellable.child member,
    Nat.le_trans (nesting_le_of_mem member) nesting_le⟩

theorem Settings.leastAlternatives_pos (settings : Settings) {scope : Scope} :
    0 < settings.leastAlternatives scope := by
  unfold leastAlternatives
  split <;> decide

theorem Node.exists_operands_of_disjunction {scope : Scope} {levels : Nat} {node : Node}
    (kind : node.kind = .form scope .disjunction)
    (spellable : node.Spellable settings) (nesting_le : node.nesting ≤ levels) :
    ∃ runs : List (List Node),
      node = branch (.form scope .disjunction) (runs.map (branch (.form scope .conjunction))) ∧
        settings.leastAlternatives scope ≤ runs.length ∧
        ∀ run ∈ runs, run ≠ [] ∧ ∀ child ∈ run, child.IsOperandOf settings scope levels := by
  obtain ⟨alternatives, rfl, admitted⟩ := spellable.shaped.exists_branch kind (by simp)
  simp only [NodeKind.admits_form, Form.admits_disjunction, Bool.and_eq_true, decide_eq_true_eq,
    List.all_eq_true, beq_iff_eq] at admitted
  obtain ⟨several, kinds⟩ := admitted
  have each : ∀ child ∈ alternatives, ∃ operands,
      child = branch (.form scope .conjunction) operands ∧ operands ≠ [] ∧
        ∀ operand ∈ operands, operand.IsOperandOf settings scope levels :=
    fun child member => exists_operands_of_conjunction (kinds child member)
      (spellable.child member) (Nat.le_trans (nesting_le_of_mem member) nesting_le)
  refine ⟨alternatives.map children, ?_, by simpa using several, fun run member => ?_⟩
  · rw [List.map_map, List.map_congr_left (g := id), List.map_id]
    intro child member
    obtain ⟨operands, rfl, _⟩ := each child member
    rfl
  · obtain ⟨child, childMember, rfl⟩ := List.mem_map.mp member
    obtain ⟨operands, rfl, filled⟩ := each child childMember
    exact filled

/-- A node is the junction of items that only operators connect, and it is spelled as they are. -/
structure Node.Joins (settings : Settings) (scope : Scope) (levels : Nat) (node first : Node)
    (rest : List (Link × Node)) : Prop where
  junction :
    (Arrangement.ofSettings settings scope).junction scope ((.opening, first) :: rest) = node
  spelling : node.spelling = first.spelling ++ Node.laterSpelling rest
  connected : ∀ item ∈ rest, item.1 = .and ∨ item.1 = .or
  first : first.IsOperandOf settings scope levels
  rest : ∀ item ∈ rest, item.2.IsOperandOf settings scope levels

theorem Node.mem_conjoined {link : Link} {operands : List Node} {item : Link × Node}
    (member : item ∈ conjoined link operands) :
    (item.1 = .and ∨ item.1 = link) ∧ item.2 ∈ operands := by
  cases operands with
  | nil => cases member
  | cons first rest =>
      rcases List.mem_cons.mp member with rfl | member
      · exact ⟨.inr rfl, by simp⟩
      · obtain ⟨node, nodeMember, rfl⟩ := List.mem_map.mp member
        exact ⟨.inl rfl, List.mem_cons_of_mem _ nodeMember⟩

theorem Node.joins_of_conjunction (full : settings.mode.dialect = .full) {scope : Scope}
    {levels : Nat} {node : Node} (kind : node.kind = .form scope .conjunction)
    (spellable : node.Spellable settings)
    (conjoins : settings.conjoins scope = true) (nesting_le : node.nesting ≤ levels) :
    ∃ first rest, node.Joins settings scope levels first rest := by
  obtain ⟨operands, rfl, nonempty, below⟩ :=
    exists_operands_of_conjunction kind spellable nesting_le
  obtain ⟨first, rest, rfl⟩ := List.exists_cons_of_ne_nil nonempty
  have items : ∀ item ∈ conjoined .opening (first :: rest),
      item.2.IsOperandOf settings scope levels :=
    fun item member => below item.2 (mem_conjoined member).2
  obtain ⟨firstOperand, restOperands⟩ := List.forall_mem_cons.mp items
  refine ⟨first, rest.map fun node => (.and, node), ?_, spelling_conjunction scope first rest,
    by simp, firstOperand, restOperands⟩
  have arranged := Arrangement.ofSettings_of_full full scope
  rw [if_pos conjoins] at arranged
  rw [arranged]
  refine Arrangement.junction_eq_conjunction _ rfl ?_
  simpa [conjoined, disjoined] using
    Arrangement.runs_disjoined .conjoining first rest (List.forall_mem_nil _)

theorem Node.joins_of_disjunction (full : settings.mode.dialect = .full) {scope : Scope}
    {levels : Nat} {node : Node} (kind : node.kind = .form scope .disjunction)
    (spellable : node.Spellable settings) (nesting_le : node.nesting ≤ levels) :
    ∃ first rest, node.Joins settings scope levels first rest := by
  obtain ⟨runs, rfl, several, below⟩ :=
    exists_operands_of_disjunction kind spellable nesting_le
  have filled : ∀ run ∈ runs, run ≠ [] := fun run member => (below run member).1
  rcases runs with _ | ⟨run, others⟩
  · exact absurd several (Nat.not_le_of_lt settings.leastAlternatives_pos)
  obtain ⟨first, operands, rfl⟩ := List.exists_cons_of_ne_nil (filled run (by simp))
  have othersFilled := (List.forall_mem_cons.mp filled).2
  have items : ∀ item ∈ conjoined .opening (first :: operands) ++ disjoined others,
      item.2.IsOperandOf settings scope levels := by
    intro item member
    rcases List.mem_append.mp member with member | member
    · exact (below (first :: operands) (by simp)).2 item.2 (mem_conjoined member).2
    · obtain ⟨run, runMember, member⟩ := List.mem_flatMap.mp member
      exact (below run (List.mem_cons_of_mem _ runMember)).2 item.2 (mem_conjoined member).2
  have connected : ∀ item ∈ (operands.map fun node => (Link.and, node)) ++ disjoined others,
      item.1 = .and ∨ item.1 = .or := by
    intro item member
    rcases List.mem_append.mp member with member | member
    · obtain ⟨_, _, rfl⟩ := List.mem_map.mp member
      exact .inl rfl
    · obtain ⟨run, _, member⟩ := List.mem_flatMap.mp member
      exact (mem_conjoined member).1
  obtain ⟨firstOperand, restOperands⟩ := List.forall_mem_cons.mp items
  refine ⟨first, (operands.map fun node => (.and, node)) ++ disjoined others, ?_,
    spelling_disjunction scope first operands othersFilled, connected, firstOperand, restOperands⟩
  have runs := (Arrangement.ofSettings settings scope).runs_disjoined first operands othersFilled
  rw [conjoined, List.cons_append] at runs
  rw [← runs]
  refine Arrangement.junction_eq_disjunction _ fun bare => ?_
  have arranged := Arrangement.ofSettings_of_full full scope
  rw [runs]
  by_cases conjoins : settings.conjoins scope = true
  · rw [Settings.leastAlternatives, if_pos ⟨full, conjoins⟩] at several
    exact Nat.ne_of_gt several
  · rw [arranged, if_neg conjoins] at bare
    cases bare

/-- A junction is that of items which only operators connect. -/
theorem Node.exists_joins (full : settings.mode.dialect = .full) {scope : Scope} {levels : Nat}
    {node : Node} (junction : node.kind.isJunction scope = true)
    (spellable : node.Spellable settings)
    (alone : node.kind = .form scope .conjunction → settings.conjoins scope = true)
    (nesting_le : node.nesting ≤ levels) :
    ∃ first rest, node.Joins settings scope levels first rest := by
  cases kind : node.kind with
  | form inner role =>
      rw [kind] at junction
      cases role with
      | conjunction =>
          obtain rfl : inner = scope := beq_iff_eq.mp junction
          exact joins_of_conjunction full kind spellable (alone kind) nesting_le
      | disjunction =>
          obtain rfl : inner = scope := beq_iff_eq.mp junction
          exact joins_of_disjunction full kind spellable nesting_le
      | _ => cases junction
  | _ =>
      rw [kind] at junction
      cases junction

end SearchQuery
