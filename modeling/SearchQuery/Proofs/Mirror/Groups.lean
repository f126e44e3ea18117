import SearchQuery.Proofs.Mirror.Readings
import SearchQuery.Proofs.Mirror.Trees
import SearchQuery.Proofs.Single
set_option autoImplicit false

/-!
# Field groups mirror groups

Operands in parentheses that name no field are a group of the query, and after a field and a colon
they are a field group. Both are accepted together, and where both scopes have the same connective,
their trees differ in the scope of the labels and in nothing else.
-/

namespace SearchQuery

open Reading Grammar

variable {settings : Settings} {tokens : List Token}

theorem Settings.arrangements_alike
    (agreeing : settings.fieldConjunction = true ↔ settings.mode = .defaultConjunction)
    (full : settings.mode.dialect = .full) :
    Arrangement.ofSettings settings .query = Arrangement.ofSettings settings .fieldGroup := by
  obtain ⟨mode, fieldConjunction⟩ := settings
  cases mode with
  | cmis => cases full
  | defaultConjunction | defaultDisjunction =>
      cases fieldConjunction <;> simp [Arrangement.ofSettings] at agreeing ⊢

theorem FieldFree.group {opening closing : Token} (fieldFree : FieldFree tokens)
    (opens : opening.kind = .lparen) (closes : closing.kind = .rparen) :
    FieldFree (opening :: (tokens ++ [closing])) := by
  simp only [FieldFree, List.mem_cons, List.mem_append, List.not_mem_nil, or_false]
  rintro token (rfl | member | rfl)
  · simp [opens, TokenKind.fieldMarks]
  · exact fieldFree token member
  · simp [closes, TokenKind.fieldMarks]

theorem Grammar.run_innerGroup_iff (fieldFree : FieldFree tokens) {inner : List Operand} :
    (innerGroup .query).run tokens = .ok (inner, []) ↔
      (innerGroup .fieldGroup).run tokens = .ok (inner, []) := by
  have agrees : (innerGroup .query).Agrees (innerGroup .fieldGroup) :=
    group_agrees (operands_agrees (operand_agrees innerLevels .query .fieldGroup))
  exact (agrees fieldFree inner []).1

/-- Operands of a field group have the same tree in both scopes, up to its labels. -/
theorem Settings.inScope_groupTree {first second : Scope}
    (alike : Arrangement.ofSettings settings first = Arrangement.ofSettings settings second)
    {inner : List Operand} (read : (innerGroup .fieldGroup).run tokens = .ok (inner, [])) :
    (settings.groupTree first inner).inScope second = settings.groupTree second inner := by
  obtain ⟨_, _, _, _, _, written, _⟩ := group_written (operands_written operand_written) read
  exact Operand.inScope_junction alike (written.inScope_nodes alike)

theorem Settings.isUnscoped_groupTree {inner : List Operand}
    (read : (innerGroup .fieldGroup).run tokens = .ok (inner, [])) :
    (settings.groupTree .query inner).IsUnscoped := by
  rw [← Settings.inScope_groupTree rfl read]
  exact Node.isUnscoped_inScope _

/-- Operands in parentheses that name no field are the only operand of a query exactly if they are
so after a field and a colon too. The tree of the field group is then the tree of the group with the
labels of the inside, and no other tree is one of such a field group. -/
theorem parseTokens_fieldGroup_mirrored (full : settings.mode.dialect = .full)
    (agreeing : settings.fieldConjunction = true ↔ settings.mode = .defaultConjunction)
    (fieldFree : ∀ token ∈ tokens, token.kind ∉ [TokenKind.colon, .atSign, .uri, .percent])
    {name colon opening closing : Token} (named : name.kind = .id) (colonKind : colon.kind = .colon)
    (opens : opening.kind = .lparen) (closes : closing.kind = .rparen) :
    let group := opening :: (tokens ++ [closing])
    let grouped (body : Node) :=
      Node.branch .fieldGroup [.branch .fieldRef [.leaf .id name.text], body]
    (∀ tree : Node,
      parseTokens settings group = .ok (settings.sole .query tree) ↔
        tree.IsUnscoped ∧
          parseTokens settings (name :: colon :: group) =
            .ok (settings.sole .query (grouped (tree.inScope .fieldGroup)))) ∧
    (∀ body : Node,
      parseTokens settings (name :: colon :: group) = .ok (settings.sole .query (grouped body)) →
        ∃ tree : Node, tree.IsUnscoped ∧ tree.inScope .fieldGroup = body) := by
  intro group grouped
  have alike := Settings.arrangements_alike agreeing full
  have fieldFree := FieldFree.group fieldFree opens closes
  let field : FieldReference := ⟨none, ⟨.id, name.text, List.mem_singleton.mpr rfl⟩⟩
  have qualifying : field.Qualifying [name, colon] :=
    .mk (.bare (.plain ⟨named.symm, rfl⟩)) colonKind
  have outside (tree : Node) := parseTokens_group_iff full (tokens ++ [closing]) opens tree
  have inside (body : Node) :=
    parseTokens_fieldGroup_iff full qualifying (tokens ++ [closing]) opens body
  constructor
  · intro tree
    constructor
    · intro accepted
      obtain ⟨inner, read, rfl⟩ := (outside _).mp accepted
      rw [run_innerGroup_iff fieldFree] at read
      exact ⟨Settings.isUnscoped_groupTree read,
        (inside _).mpr ⟨inner, read, (Settings.inScope_groupTree alike read).symm⟩⟩
    · rintro ⟨unscoped, accepted⟩
      obtain ⟨inner, read, same⟩ := (inside _).mp accepted
      have readOutside := (run_innerGroup_iff fieldFree).mpr read
      rw [← Settings.inScope_groupTree alike read] at same
      exact (outside _).mpr ⟨inner, readOutside,
        Node.IsUnscoped.eq_of_inScope_eq (Settings.isUnscoped_groupTree read) unscoped same⟩
  · intro body accepted
    obtain ⟨inner, read, rfl⟩ := (inside _).mp accepted
    exact ⟨settings.groupTree .query inner, Settings.isUnscoped_groupTree read,
      Settings.inScope_groupTree alike read⟩

/-- The operands `NOT a "b c" ~ 2` in parentheses, and after `f :`. -/
theorem mirrored_of_negated_word :
    let tokens : List Token :=
      [⟨.not, "NOT", 4, 7⟩, ⟨.id, "a", 8, 9⟩, ⟨.phrase, "\"b c\"", 10, 15⟩, ⟨.tilde, "~", 15, 16⟩,
        ⟨.integer, "2", 16, 17⟩]
    let opening : Token := ⟨.lparen, "(", 3, 4⟩
    let closing : Token := ⟨.rparen, ")", 17, 18⟩
    let name : Token := ⟨.id, "f", 0, 1⟩
    let colon : Token := ⟨.colon, ":", 1, 2⟩
    let group : List Token := opening :: (tokens ++ [closing])
    let tree : Node :=
      .branch (.form .query .conjunction)
        [.branch (.form .query .negation) [.branch (.form .query .term) [.leaf .id "a"]],
          .branch (.form .query .default)
            [.branch (.form .query .phrase)
              [.leaf .phrase "\"b c\"", .branch .fuzzy [.leaf .integer "2"]]]]
    parseTokens .standard group = .ok (Settings.standard.sole .query tree) ∧
      parseTokens .standard (name :: colon :: group) =
        .ok (Settings.standard.sole .query
          (.branch .fieldGroup
            [.branch .fieldRef [.leaf .id "f"], tree.inScope .fieldGroup])) := by
  intro tokens opening closing name colon group tree
  have accepted : parseTokens .standard group = .ok (Settings.standard.sole .query tree) := rfl
  have full : Settings.standard.mode.dialect = .full := rfl
  have agreeing : Settings.standard.fieldConjunction = true ↔
      Settings.standard.mode = .defaultConjunction := by decide
  have fieldFree : ∀ token ∈ tokens, token.kind ∉ [TokenKind.colon, .atSign, .uri, .percent] := by
    decide
  have named : name.kind = .id := rfl
  have colonKind : colon.kind = .colon := rfl
  have opens : opening.kind = .lparen := rfl
  have closes : closing.kind = .rparen := rfl
  obtain ⟨mirrored, _⟩ :=
    parseTokens_fieldGroup_mirrored full agreeing fieldFree named colonKind opens closes
  exact ⟨accepted, ((mirrored tree).mp accepted).2⟩

end SearchQuery
