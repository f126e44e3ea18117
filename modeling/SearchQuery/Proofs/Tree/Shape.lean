import SearchQuery.Proofs.Accepted
import SearchQuery.Proofs.Tree.Nodes
import SearchQuery.Proofs.Tree.Places
set_option autoImplicit false

/-!
# Shapes of trees

Which children a node of each kind has. The settings matter in one place only: a disjunction that
stands for no more than its only conjunction is left out where adjacent operands are conjoined.
-/

namespace SearchQuery

/-- The number of conjunctions that a disjunction has at least. -/
def Settings.leastAlternatives (settings : Settings) (scope : Scope) : Nat :=
  if settings.mode.dialect = .full ∧ settings.conjoins scope = true then 2 else 1

def Form.isSigned : Form → Bool
  | negation | default | mandatory | optional | exclude => true
  | _ => false

@[simp] theorem Sign.isSigned_form (sign : Sign) : sign.form.isSigned = true := by
  cases sign <;> rfl

theorem Sign.exists_form_eq {form : Form} (signed : form.isSigned = true) :
    ∃ sign : Sign, sign.form = form := by
  cases form with
  | negation => exact ⟨.negation, rfl⟩
  | default => exact ⟨.none, rfl⟩
  | mandatory => exact ⟨.mandatory, rfl⟩
  | optional => exact ⟨.optional, rfl⟩
  | exclude => exact ⟨.exclude, rfl⟩
  | _ => cases signed

namespace NodeKind

def isTokenOf (kinds : List TokenKind) : NodeKind → Bool
  | token kind => kinds.contains kind
  | _ => false

/-- Whether a label is that of an operand in a scope. -/
def isSigned (scope : Scope) : NodeKind → Bool
  | form inner role => inner == scope && role.isSigned
  | _ => false

/-- Whether a label is that of operands in parentheses, or of all operands of a query. -/
def isJunction (scope : Scope) : NodeKind → Bool
  | form inner .disjunction | form inner .conjunction => inner == scope
  | _ => false

def isTest (scope : Scope) : NodeKind → Bool
  | form inner role => inner == scope && !role.isOperator
  | fieldGroup | template => scope == .query
  | _ => false

def isMarker : NodeKind → Bool
  | inclusive | exclusive => true
  | _ => false

end NodeKind

namespace Node

/-- A node with one label whose only child is a token of some kinds. -/
def holds (label : NodeKind) (kinds : List TokenKind) : Node → Bool
  | mk kind [token] _ => kind == label && token.kind.isTokenOf kinds
  | _ => false

/-- What may follow the word or phrase of a test: its field, except inside a field group, and a
number of some kinds that loosens it. -/
def areQualifiers (scope : Scope) (numbers : List TokenKind) : List Node → Bool
  | [] => true
  | [only] => only.holds .fuzzy numbers || (scope == .query && only.kind == .fieldRef)
  | [field, fuzzy] => scope == .query && field.kind == .fieldRef && fuzzy.holds .fuzzy numbers
  | _ => false

/-- Words with a distance between each two. -/
def areSpaced : List Node → Bool
  | [word] => word.kind.isTokenOf TokenKind.words
  | word :: distance :: rest =>
      word.kind.isTokenOf TokenKind.words && distance.kind == .distance && areSpaced rest
  | [] => false

end Node

/-- Whether a form may have these children in a scope. -/
def Form.admits (settings : Settings) (scope : Scope) : Form → List Node → Bool
  | disjunction, alternatives =>
      decide (settings.leastAlternatives scope ≤ alternatives.length) &&
        alternatives.all fun child => child.kind == .form scope .conjunction
  | conjunction, operands =>
      !operands.isEmpty && operands.all fun child => child.kind.isSigned scope
  | negation, [body] | default, [body] | mandatory, [body] | optional, [body] | exclude, [body] =>
      body.kind.isTest scope || body.kind.isJunction scope
  | negation, [body, boost] | default, [body, boost] | mandatory, [body, boost]
  | optional, [body, boost] | exclude, [body, boost] =>
      (body.kind.isTest scope || body.kind.isJunction scope) && boost.kind == .boost
  | term, word :: rest | exactTerm, word :: rest | synonym, word :: rest =>
      word.kind.isTokenOf TokenKind.termWords && Node.areQualifiers scope TokenKind.numbers rest
  | phrase, text :: rest | exactPhrase, text :: rest =>
      text.kind.isTokenOf [.phrase] && Node.areQualifiers scope [.integer] rest
  | range, [lower, low, high, upper] =>
      lower.kind.isMarker && low.kind.isTokenOf TokenKind.rangeBounds &&
        high.kind.isTokenOf TokenKind.rangeBounds && upper.kind.isMarker
  | proximity, children =>
      children.length % 2 == 1 && decide (3 ≤ children.length) && Node.areSpaced children
  | _, _ => false

namespace Form

variable {settings : Settings} {scope : Scope}

@[simp] theorem admits_disjunction (alternatives : List Node) :
    disjunction.admits settings scope alternatives =
      (decide (settings.leastAlternatives scope ≤ alternatives.length) &&
        alternatives.all fun child => child.kind == .form scope .conjunction) := rfl

@[simp] theorem admits_conjunction (operands : List Node) :
    conjunction.admits settings scope operands =
      (!operands.isEmpty && operands.all fun child => child.kind.isSigned scope) := rfl

@[simp] theorem admits_range (lower low high upper : Node) :
    range.admits settings scope [lower, low, high, upper] =
      (lower.kind.isMarker && low.kind.isTokenOf TokenKind.rangeBounds &&
        high.kind.isTokenOf TokenKind.rangeBounds && upper.kind.isMarker) := rfl

@[simp] theorem admits_proximity (children : List Node) :
    proximity.admits settings scope children =
      (children.length % 2 == 1 && decide (3 ≤ children.length) && Node.areSpaced children) := rfl

@[simp] theorem admits_sign (sign : Sign) (body : Node) :
    sign.form.admits settings scope [body] =
      (body.kind.isTest scope || body.kind.isJunction scope) := by
  cases sign <;> rfl

@[simp] theorem admits_sign_boost (sign : Sign) (body boost : Node) :
    sign.form.admits settings scope [body, boost] =
      ((body.kind.isTest scope || body.kind.isJunction scope) && boost.kind == .boost) := by
  cases sign <;> rfl

end Form

def NodeKind.admits (settings : Settings) : NodeKind → List Node → Bool
  | form scope role, children => role.admits settings scope children
  | fieldGroup, [field, body] => field.kind == .fieldRef && body.kind.isJunction .fieldGroup
  | template, fields => !fields.isEmpty && fields.all fun field => field.kind == .fieldRef
  | fieldRef, [name] => name.kind.isTokenOf [.id]
  | fieldRef, [name, qualifier] =>
      name.kind.isTokenOf [.id] &&
        (qualifier.kind == .qualifierWord || qualifier.kind == .nameSpace)
  | qualifierWord, [word] => word.kind.isTokenOf [.id]
  | nameSpace, [uri] => uri.kind.isTokenOf [.uri]
  | boost, [number] | fuzzy, [number] => number.kind.isTokenOf TokenKind.numbers
  | distance, [] | inclusive, [] | exclusive, [] => true
  | distance, [limit] => limit.kind.isTokenOf [.integer]
  | _, _ => false

namespace NodeKind

variable {settings : Settings}

@[simp] theorem admits_form (scope : Scope) (role : Form) (children : List Node) :
    (form scope role).admits settings children = role.admits settings scope children := rfl

@[simp] theorem admits_fieldGroup (field body : Node) :
    fieldGroup.admits settings [field, body] =
      (field.kind == .fieldRef && body.kind.isJunction .fieldGroup) := rfl

@[simp] theorem admits_template (fields : List Node) :
    template.admits settings fields =
      (!fields.isEmpty && fields.all fun field => field.kind == .fieldRef) := rfl

@[simp] theorem admits_fieldRef (name : Node) :
    fieldRef.admits settings [name] = name.kind.isTokenOf [.id] := rfl

@[simp] theorem admits_fieldRef_qualified (name qualifier : Node) :
    fieldRef.admits settings [name, qualifier] =
      (name.kind.isTokenOf [.id] &&
        (qualifier.kind == .qualifierWord || qualifier.kind == .nameSpace)) := rfl

@[simp] theorem admits_boost (number : Node) :
    boost.admits settings [number] = number.kind.isTokenOf TokenKind.numbers := rfl

end NodeKind

/-- Whether a node has a text exactly if it is a token, then no children, and otherwise the children
that its label asks for. -/
def Node.isShaped (settings : Settings) : Node → Bool
  | mk (.token _) children literal => literal.isSome && children.isEmpty
  | mk kind children literal => literal.isNone && kind.admits settings children

/-- Every node of a tree is shaped as its label asks. -/
abbrev Node.Shaped (settings : Settings) : Node → Prop :=
  Node.Everywhere fun node => node.isShaped settings = true

/-!
## Parts of tests
-/

theorem Leaf.shaped {settings : Settings} {kinds : List TokenKind} (leaf : Leaf kinds) :
    leaf.toNode.Shaped settings :=
  .mk rfl (by simp)

theorem Leaf.isTokenOf_toNode {kinds : List TokenKind} (leaf : Leaf kinds) :
    leaf.toNode.kind.isTokenOf kinds = true := by
  simpa [NodeKind.isTokenOf] using leaf.kind_mem

theorem NodeKind.isTokenOf_mono {kind : NodeKind} {kinds more : List TokenKind}
    (included : ∀ kind ∈ kinds, kind ∈ more) (token : kind.isTokenOf kinds = true) :
    kind.isTokenOf more = true := by
  cases kind <;> simp_all [isTokenOf]

/-- A node whose children are shaped has its own shape to show. -/
theorem Node.Shaped.branch {settings : Settings} {kind : NodeKind} {children : List Node}
    (untexted : ∀ token, kind ≠ .token token) (admitted : kind.admits settings children = true)
    (below : ∀ child ∈ children, child.Shaped settings) :
    (Node.branch kind children).Shaped settings := by
  refine .mk ?_ below
  cases kind with
  | token token => exact absurd rfl (untexted token)
  | _ => simpa [Node.isShaped] using admitted

theorem Leaf.shaped_holder {settings : Settings} {kinds : List TokenKind} {label : NodeKind}
    (leaf : Leaf kinds) (untexted : ∀ token, label ≠ .token token)
    (admitted : label.admits settings [leaf.toNode] = true) :
    (Node.branch label [leaf.toNode]).Shaped settings :=
  .branch untexted admitted (by simpa using leaf.shaped)

theorem Qualifier.shaped {settings : Settings} (qualifier : Qualifier) :
    qualifier.toNode.Shaped settings := by
  cases qualifier with
  | word name => exact name.shaped_holder (by simp) name.isTokenOf_toNode
  | nameSpace uri => exact uri.shaped_holder (by simp) uri.isTokenOf_toNode

theorem FieldReference.shaped {settings : Settings} (field : FieldReference) :
    field.toNode.Shaped settings := by
  obtain ⟨qualifier, name⟩ := field
  have named := name.isTokenOf_toNode
  cases qualifier with
  | none =>
      refine .branch (by simp) ?_ (by simpa using name.shaped)
      simpa using named
  | some qualifier =>
      have label : qualifier.toNode.kind = .qualifierWord ∨ qualifier.toNode.kind = .nameSpace := by
        cases qualifier with
        | word name => exact .inl rfl
        | nameSpace uri => exact .inr rfl
      refine .branch (by simp) ?_ ?_
      · simpa using ⟨named, label⟩
      · simpa using ⟨name.shaped, qualifier.shaped⟩

namespace Test

theorem shaped_qualifiers {settings : Settings} {kinds : List TokenKind}
    (field : Option FieldReference) (number : Option (Leaf kinds))
    (numeric : ∀ kind ∈ kinds, kind ∈ TokenKind.numbers) :
    ∀ child ∈ qualifiers field number, child.Shaped settings := by
  have fuzzy (number : Leaf kinds) : (Node.branch .fuzzy [number.toNode]).Shaped settings :=
    number.shaped_holder (by simp) (NodeKind.isTokenOf_mono numeric number.isTokenOf_toNode)
  cases field <;> cases number <;> simp [qualifiers, FieldReference.shaped, fuzzy]

theorem areQualifiers_qualifiers {scope : Scope} {kinds : List TokenKind} {tokens : List Token}
    {field : Option FieldReference} (written : QualifierWritten scope field tokens)
    (number : Option (Leaf kinds)) :
    Node.areQualifiers scope kinds (qualifiers field number) = true := by
  have fuzzy (number : Leaf kinds) :
      (Node.branch .fuzzy [number.toNode]).holds .fuzzy kinds = true := by
    simpa [Node.branch, Node.holds] using number.isTokenOf_toNode
  cases written with
  | absent => cases number <;> simp [qualifiers, Node.areQualifiers, fuzzy]
  | present _ => cases number <;> simp [qualifiers, Node.areQualifiers, fuzzy]

/-- A word or phrase with its qualifiers is shaped if its form asks for nothing else. -/
theorem shaped_qualified {settings : Settings} {scope : Scope} {form : Form}
    {kinds loose : List TokenKind} {tokens : List Token} {field : Option FieldReference}
    (written : QualifierWritten scope field tokens) (word : Leaf kinds)
    (number : Option (Leaf loose)) (numeric : ∀ kind ∈ loose, kind ∈ TokenKind.numbers)
    (admits : ∀ word rest, form.admits settings scope (word :: rest) =
      (word.kind.isTokenOf kinds && Node.areQualifiers scope loose rest)) :
    (Node.branch (.form scope form) (word.toNode :: qualifiers field number)).Shaped settings := by
  refine .branch (by simp) ?_ ?_
  · rw [NodeKind.admits_form, admits, word.isTokenOf_toNode, areQualifiers_qualifiers written,
      Bool.and_self]
  · exact List.forall_mem_cons.mpr ⟨word.shaped, shaped_qualifiers field number numeric⟩

theorem RangeWritten.shaped {settings : Settings} {test : Test} {tokens : List Token}
    (scope : Scope) (written : RangeWritten test tokens) : (test.toNode scope).Shaped settings := by
  have closure (closure : Closure) : closure.toNode.Shaped settings ∧
      closure.toNode.kind.isMarker = true := by
    cases closure <;> exact ⟨.branch (by simp) rfl (by simp), rfl⟩
  have range (lower upper : Closure) (low high : RangeBound) :
      (Test.toNode scope (.range lower low high upper)).Shaped settings := by
    refine .branch (by simp) ?_ ?_
    · simp only [NodeKind.admits_form, Form.admits_range, (closure lower).2, (closure upper).2,
        low.isTokenOf_toNode, high.isTokenOf_toNode, Bool.and_self]
    · simp [(closure lower).1, (closure upper).1, low.shaped, high.shaped]
  cases written with
  | dotted => exact range ..
  | bracketed => exact range ..

theorem areSpaced_steps (first : PlainWord) (steps : List (Option WholeNumber × PlainWord)) :
    Node.areSpaced (first.toNode :: steps.flatMap stepNodes) = true := by
  induction steps generalizing first with
  | nil => exact first.isTokenOf_toNode
  | cons step rest ih =>
      simp only [List.flatMap_cons, stepNodes, List.cons_append, List.nil_append, Node.areSpaced,
        first.isTokenOf_toNode, Node.kind_branch, beq_self_eq_true, Bool.and_self, ih step.2]

theorem shaped_stepNodes {settings : Settings} (step : Option WholeNumber × PlainWord) :
    ∀ child ∈ stepNodes step, child.Shaped settings := by
  obtain ⟨distance, word⟩ := step
  have distanceShaped :
      (Node.branch .distance (distance.toList.map Leaf.toNode)).Shaped settings := by
    cases distance with
    | none => exact .branch (by simp) rfl (by simp)
    | some limit => exact limit.shaped_holder (by simp) limit.isTokenOf_toNode
  simp [stepNodes, distanceShaped, word.shaped]

theorem length_flatMap_stepNodes (steps : List (Option WholeNumber × PlainWord)) :
    (steps.flatMap stepNodes).length = 2 * steps.length := by
  induction steps with
  | nil => rfl
  | cons step rest ih =>
      rw [List.flatMap_cons, List.length_append, ih, stepNodes, List.length_cons]
      simp only [List.length_cons, List.length_nil]
      omega

theorem ProximityWritten.shaped {settings : Settings} {test : Test} {tokens : List Token}
    (scope : Scope) (written : ProximityWritten test tokens) :
    (test.toNode scope).Shaped settings := by
  cases written with
  | @mk first steps _ _ _ _ nonempty =>
      have positive : 0 < steps.length := List.length_pos_iff.mpr nonempty
      refine .branch (by simp) ?_ ?_
      · simp only [NodeKind.admits_form, Form.admits_proximity, areSpaced_steps, List.length_cons,
          length_flatMap_stepNodes, Bool.and_true, Bool.and_eq_true, beq_iff_eq, decide_eq_true_eq]
        omega
      · refine List.forall_mem_cons.mpr ⟨first.shaped, fun child member => ?_⟩
        obtain ⟨step, _, childOf⟩ := List.mem_flatMap.mp member
        exact shaped_stepNodes step child childOf

theorem shaped_template {settings : Settings} (scope : Scope) {fields : List FieldReference}
    (nonempty : fields ≠ []) : (Test.toNode scope (.template fields)).Shaped settings := by
  refine .branch (by simp) ?_ ?_
  · simpa using nonempty
  · simpa using fun field _ => field.shaped

theorem Written.shaped {settings : Settings} {scope : Scope} {test : Test} {tokens : List Token}
    (written : Test.Written scope test tokens) : (test.toNode scope).Shaped settings := by
  cases written with
  | term qualifier _ _ => exact shaped_qualified qualifier _ _ (by decide) fun _ _ => rfl
  | phrase qualifier _ _ => exact shaped_qualified qualifier _ _ (by decide) fun _ _ => rfl
  | exactTerm _ qualifier _ _ => exact shaped_qualified qualifier _ _ (by decide) fun _ _ => rfl
  | exactPhrase _ qualifier _ _ => exact shaped_qualified qualifier _ _ (by decide) fun _ _ => rfl
  | synonym _ qualifier _ _ => exact shaped_qualified qualifier _ _ (by decide) fun _ _ => rfl
  | span written =>
      cases written with
      | range written => exact written.shaped scope
      | proximity written => exact written.shaped scope
  | template _ _ => exact shaped_template .query (by simp)
  | templates _ _ _ nonempty _ => exact shaped_template .query nonempty

theorem Written.isTest {scope : Scope} {test : Test} {tokens : List Token}
    (written : Test.Written scope test tokens) : (test.toNode scope).kind.isTest scope = true := by
  cases written with
  | span written =>
      cases written with
      | range written => cases written <;> simp [Test.toNode, NodeKind.isTest, Form.isOperator]
      | proximity written => cases written; simp [Test.toNode, NodeKind.isTest, Form.isOperator]
  | _ => simp [Test.toNode, NodeKind.isTest, Form.isOperator]

end Test

/-!
## Junctions and operands
-/

theorem Operand.isSigned_toNode (arrangement : Scope → Arrangement) (scope : Scope)
    (operand : Operand) : (operand.toNode arrangement scope).kind.isSigned scope = true := by
  obtain ⟨link, sign, body, boost⟩ := operand
  rw [Operand.kind_toNode]
  simp [NodeKind.isSigned]

theorem Arrangement.isJunction_junction (arrangement : Arrangement) (scope : Scope)
    (items : List (Link × Node)) :
    (arrangement.junction scope items).kind.isJunction scope = true := by
  rcases arrangement.junction_cases scope items with ⟨_, _, same⟩ | ⟨_, same⟩ <;>
    simp [same, NodeKind.isJunction]

/-- Only where adjacent operands are conjoined does a lone conjunction stand without a
disjunction. -/
theorem Settings.leastAlternatives_le {settings : Settings} {scope : Scope} {count : Nat}
    (several : (Arrangement.ofSettings settings scope).bareWhenSingle = true → count ≠ 1)
    (positive : count ≠ 0) : settings.leastAlternatives scope ≤ count := by
  unfold leastAlternatives
  split
  · next conjoining =>
      obtain ⟨full, conjoins⟩ := conjoining
      rw [Arrangement.ofSettings_of_full full, if_pos conjoins] at several
      have several := several rfl
      omega
  · omega

theorem Arrangement.shaped_junction {settings : Settings} {scope : Scope}
    {items : List (Link × Node)} (nonempty : items ≠ [])
    (signed : ∀ node ∈ items.map Prod.snd, node.kind.isSigned scope = true)
    (shaped : ∀ node ∈ items.map Prod.snd, node.Shaped settings) :
    ((Arrangement.ofSettings settings scope).junction scope items).Shaped settings := by
  have conjunction {run : List Node} (filled : run ≠ [])
      (within : ∀ node ∈ run, node ∈ items.map Prod.snd) :
      (Node.branch (.form scope .conjunction) run).Shaped settings := by
    refine .branch (by simp) ?_ fun node member => shaped node (within node member)
    simpa [filled] using
      fun node member => signed node (within node member)
  rcases (Arrangement.ofSettings settings scope).junction_cases scope items with
    ⟨_, _, same⟩ | ⟨several, same⟩
  · rw [same]
    exact conjunction (by simpa using nonempty) fun _ member => member
  · obtain ⟨filled, some⟩ := (Arrangement.ofSettings settings scope).runs_ne_nil items
    rw [same]
    refine .branch (by simp) ?_ ?_
    · have least := settings.leastAlternatives_le several
        (by simpa using some nonempty)
      simpa using least
    · intro child member
      obtain ⟨run, runMember, rfl⟩ := List.mem_map.mp member
      exact conjunction (filled run runMember) fun node nodeMember =>
        Arrangement.mem_of_mem_runs _ runMember nodeMember

theorem Part.Written.operands_ne_nil {scope : Scope} {operands : List Operand}
    {tokens : List Token} (written : Part.Written scope (.operands operands) tokens) :
    operands ≠ [] := by
  cases written
  simp

theorem Operand.shaped_junction {settings : Settings} {scope : Scope} {operands : List Operand}
    (nonempty : operands ≠ [])
    (shaped : ∀ operand ∈ operands,
      (operand.toNode (Arrangement.ofSettings settings) scope).Shaped settings) :
    ((Arrangement.ofSettings settings scope).junction scope
      (Operand.linkedNodes (Arrangement.ofSettings settings) scope operands)).Shaped settings := by
  rw [Operand.linkedNodes_eq_map]
  refine Arrangement.shaped_junction (by simpa using nonempty) ?_ ?_
  · simpa using fun operand _ =>
      Operand.isSigned_toNode (Arrangement.ofSettings settings) scope operand
  · simpa using shaped

/-- What an operand applies to is a test, or operands in parentheses. -/
theorem Part.Written.isTest_or_isJunction {arrangement : Scope → Arrangement} {scope : Scope}
    {body : Body} {tokens : List Token} (written : Part.Written scope (.body body) tokens) :
    ((body.toNode arrangement scope).kind.isTest scope ||
      (body.toNode arrangement scope).kind.isJunction scope) = true := by
  cases written with
  | test written => rw [Body.toNode, written.isTest, Bool.true_or]
  | group _ _ _ => rw [Body.toNode, Arrangement.isJunction_junction, Bool.or_true]
  | fieldGroup _ _ _ _ => rw [Body.toNode]; rfl
  | fieldSpan _ _ => rw [Body.toNode]; rfl

theorem Operand.shaped_toNode {settings : Settings} {arrangement : Scope → Arrangement}
    {scope : Scope} {link : Link} {sign : Sign} {body : Body} (boost : Option Number)
    (bodyKind : ((body.toNode arrangement scope).kind.isTest scope ||
      (body.toNode arrangement scope).kind.isJunction scope) = true)
    (bodyShaped : (body.toNode arrangement scope).Shaped settings) :
    (Operand.toNode arrangement scope (.mk link sign body boost)).Shaped settings := by
  rw [Operand.toNode]
  refine .branch (by simp) ?_ ?_
  · cases boost <;> simpa using bodyKind
  · cases boost with
    | none => simpa using bodyShaped
    | some factor =>
        have boostShaped : (Node.branch .boost [factor.toNode]).Shaped settings :=
          factor.shaped_holder (by simp) factor.isTokenOf_toNode
        simpa using ⟨bodyShaped, boostShaped⟩

theorem Operand.shaped_ofTest {settings : Settings} {arrangement : Scope → Arrangement}
    {scope : Scope} {test : Test} {tokens : List Token} (written : test.Written scope tokens) :
    ((Operand.ofTest test).toNode arrangement scope).Shaped settings := by
  refine Operand.shaped_toNode none (Part.Written.test written).isTest_or_isJunction ?_
  rw [Body.toNode]
  exact written.shaped

theorem Body.shaped_fieldGroup {settings : Settings} {field : FieldReference}
    {operands : List Operand} (nonempty : operands ≠ [])
    (shaped : ∀ operand ∈ operands,
      (operand.toNode (Arrangement.ofSettings settings) .fieldGroup).Shaped settings) :
    (Body.toNode (Arrangement.ofSettings settings) .query (.fieldGroup field operands)).Shaped
      settings := by
  rw [Body.toNode]
  refine .branch (by simp) ?_ ?_
  · simp [Arrangement.isJunction_junction]
  · simpa using ⟨field.shaped, Operand.shaped_junction nonempty shaped⟩

theorem Part.Written.shaped (settings : Settings) {scope : Scope} {part : Part}
    {tokens : List Token} (written : part.Written scope tokens) :
    ∀ node ∈ part.nodes (Arrangement.ofSettings settings) scope, node.Shaped settings := by
  induction written with
  | operand _ bodyWritten _ ih =>
      have body := List.forall_mem_singleton.mp ih
      exact List.forall_mem_singleton.mpr
        (Operand.shaped_toNode _ bodyWritten.isTest_or_isJunction body)
  | test written =>
      refine List.forall_mem_singleton.mpr ?_
      rw [Body.toNode]
      exact written.shaped
  | group _ written _ ih =>
      refine List.forall_mem_singleton.mpr ?_
      rw [Body.toNode]
      exact Operand.shaped_junction written.operands_ne_nil (List.forall_mem_map.mp ih)
  | fieldGroup _ _ written _ ih =>
      exact List.forall_mem_singleton.mpr
        (Body.shaped_fieldGroup written.operands_ne_nil (List.forall_mem_map.mp ih))
  | fieldSpan _ written =>
      refine List.forall_mem_singleton.mpr (Body.shaped_fieldGroup (by simp) ?_)
      exact List.forall_mem_singleton.mpr (Operand.shaped_ofTest (.span written))
  | operands _ _ _ firstIH laterIH =>
      exact List.forall_mem_cons.mpr ⟨List.forall_mem_singleton.mp firstIH, laterIH⟩
  | done => exact List.forall_mem_nil _
  | later _ _ _ nextIH laterIH =>
      exact List.forall_mem_cons.mpr ⟨List.forall_mem_singleton.mp nextIH, laterIH⟩

theorem Part.Written.shaped_queryTree (settings : Settings) {operands : List Operand}
    {tokens : List Token} (written : Part.Written .query (.operands operands) tokens) :
    (queryTree settings operands).Shaped settings :=
  Operand.shaped_junction written.operands_ne_nil
    (List.forall_mem_map.mp (written.shaped settings))

/-- The tree of an accepted query is a junction, and every node in it is shaped as its label and the
settings ask. -/
theorem parseTokens_shaped {settings : Settings} {tokens : List Token} {tree : Node}
    (accepted : parseTokens settings tokens = .ok tree) :
    tree.kind.isJunction .query = true ∧
      ∀ place node, tree.at? place = some node → node.isShaped settings = true := by
  obtain ⟨operands, read, rfl⟩ := parseTokens_eq_ok_iff.mp accepted
  have shaped := (readTokens_written read).shaped_queryTree settings
  exact ⟨Arrangement.isJunction_junction .., fun _ _ found => shaped.at? found⟩

/-- The tree of `[1 TO 9]^2 OR a*b`, where two alternatives need a disjunction. -/
theorem shapes_of_range_or_proximity :
    let tokens : List Token :=
      [⟨.lsquare, "[", 0, 1⟩, ⟨.integer, "1", 1, 2⟩, ⟨.upTo, "TO", 3, 5⟩, ⟨.integer, "9", 6, 7⟩,
        ⟨.rsquare, "]", 7, 8⟩, ⟨.caret, "^", 8, 9⟩, ⟨.integer, "2", 9, 10⟩, ⟨.or, "OR", 11, 13⟩,
        ⟨.id, "a", 14, 15⟩, ⟨.star, "*", 15, 16⟩, ⟨.id, "b", 16, 17⟩]
    ∃ tree, parseTokens .standard tokens = .ok tree ∧
      tree.kind = .form .query .disjunction ∧ tree.kind.isJunction .query = true ∧
      ∀ place node, tree.at? place = some node → node.isShaped .standard = true := by
  intro tokens
  have accepted : parseTokens .standard tokens = .ok _ := rfl
  exact ⟨_, accepted, rfl, parseTokens_shaped accepted⟩

end SearchQuery
