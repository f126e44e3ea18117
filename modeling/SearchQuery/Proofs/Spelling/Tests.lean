import SearchQuery.Proofs.Spelling
set_option autoImplicit false

/-!
# Spelled tests are written tests

The nodes of a test are those of one test, which is written with the tokens that spell them.
-/

namespace SearchQuery

variable {settings : Settings} {tokens : List Token}

namespace Node

theorem Shaped.child {node child : Node} (shaped : node.Shaped settings)
    (member : child ∈ node.children) : child.Shaped settings :=
  Everywhere.child shaped member

/-- A shaped node that is no token has children which its label asks for, and nothing else. -/
theorem Shaped.exists_branch {node : Node} (shaped : node.Shaped settings) {kind : NodeKind}
    (same : node.kind = kind) (untexted : ∀ token, kind ≠ .token token) :
    ∃ children, node = Node.branch kind children ∧ kind.admits settings children = true := by
  have here := shaped.here
  obtain ⟨label, children, literal⟩ := node
  obtain rfl : label = kind := same
  have here : literal.isNone = true ∧ label.admits settings children = true := by
    rw [isShaped] at here
    · simpa using here
    · exact untexted
  obtain rfl := Option.isNone_iff_eq_none.mp here.1
  exact ⟨children, rfl, here.2⟩

theorem Shaped.exists_leaf {node : Node} (shaped : node.Shaped settings) {kinds : List TokenKind}
    (token : node.kind.isTokenOf kinds = true)
    (spelled : tokens.map Token.lexeme = node.spelling) :
    ∃ (leaf : Leaf kinds) (token : Token), leaf.toNode = node ∧ leaf.IsOf token ∧
      tokens = [token] := by
  have here := shaped.here
  obtain ⟨kind, children, literal⟩ := node
  cases kind with
  | token kind =>
      simp only [isShaped, Bool.and_eq_true, List.isEmpty_iff, Option.isSome_iff_exists] at here
      obtain ⟨⟨text, rfl⟩, rfl⟩ := here
      obtain ⟨single, rfl, same⟩ := List.map_eq_singleton_iff.mp spelled
      obtain ⟨rfl, rfl⟩ := Prod.mk.inj same
      exact ⟨⟨single.kind, single.text, List.contains_iff_mem.mp token⟩, single, rfl,
        ⟨rfl, rfl⟩, rfl⟩
  | _ => cases token

/-- The children of a node with some label, and what they are spelled with. -/
theorem Shaped.exists_children {node : Node} (shaped : node.Shaped settings) {kind : NodeKind}
    (same : node.kind = kind) (untexted : ∀ token, kind ≠ .token token)
    (spelled : tokens.map Token.lexeme = node.spelling) :
    ∃ children, node = Node.branch kind children ∧ kind.admits settings children = true ∧
      (∀ child ∈ children, child.Shaped settings) ∧
      tokens.map Token.lexeme = kind.spell (Node.spelled children) := by
  obtain ⟨children, rfl, admitted⟩ := shaped.exists_branch same untexted
  rw [spelling_branch _ untexted] at spelled
  exact ⟨children, rfl, admitted, fun child member => shaped.child member, spelled⟩

/-- A qualifier is written before any name. -/
theorem Shaped.exists_qualifier {node : Node} (shaped : node.Shaped settings)
    (kind : node.kind = .qualifierWord ∨ node.kind = .nameSpace)
    (spelled : tokens.map Token.lexeme = node.spelling) :
    ∃ qualifier : Qualifier, qualifier.toNode = node ∧
      ∀ (name : Identifier) (token : Token), name.IsOf token →
        FieldReference.Bare ⟨some qualifier, name⟩ (tokens ++ [token]) := by
  rcases kind with isWord | isNameSpace
  · obtain ⟨words, rfl, admitted, below, spelled⟩ :=
      shaped.exists_children isWord (by simp) spelled
    rcases words with _ | ⟨word, _ | _⟩
    case nil => cases admitted
    case cons.cons => cases admitted
    case cons.nil =>
      obtain ⟨_, _, rfl, wordSpelled, colonSpelled⟩ := List.map_eq_append_iff.mp spelled
      obtain ⟨leaf, first, rfl, same, rfl⟩ :=
        (below word (by simp)).exists_leaf admitted wordSpelled
      obtain ⟨colon, rfl, colonSame⟩ := List.map_eq_singleton_iff.mp colonSpelled
      exact ⟨.word leaf, rfl, fun _ _ named => .word same (congrArg Prod.fst colonSame) named⟩
  · obtain ⟨uris, rfl, admitted, below, spelled⟩ :=
      shaped.exists_children isNameSpace (by simp) spelled
    rcases uris with _ | ⟨uri, _ | _⟩
    case nil => cases admitted
    case cons.cons => cases admitted
    case cons.nil =>
      simp only [Node.spelled, NodeKind.spell, List.flatMap_cons, List.flatMap_nil,
        List.append_nil] at spelled
      obtain ⟨leaf, first, rfl, same, rfl⟩ := (below uri (by simp)).exists_leaf admitted spelled
      exact ⟨.nameSpace leaf, rfl, fun _ _ named => .nameSpace same named⟩

theorem Shaped.exists_field {node : Node} (shaped : node.Shaped settings)
    (kind : node.kind = .fieldRef) (spelled : tokens.map Token.lexeme = node.spelling) :
    ∃ field : FieldReference, field.toNode = node ∧ field.Bare tokens := by
  obtain ⟨children, rfl, admitted, below, spelled⟩ :=
    shaped.exists_children kind (by simp) spelled
  rcases children with _ | ⟨name, _ | ⟨qualifier, _ | _⟩⟩
  case nil => cases admitted
  case cons.cons.cons => cases admitted
  case cons.nil =>
    simp only [Node.spelled, NodeKind.spell, List.flatMap_cons, List.flatMap_nil,
      List.append_nil] at spelled
    obtain ⟨leaf, token, rfl, same, rfl⟩ := (below name (by simp)).exists_leaf admitted spelled
    exact ⟨⟨none, leaf⟩, rfl, .plain same⟩
  case cons.cons.nil =>
    simp only [NodeKind.admits_fieldRef_qualified, Bool.and_eq_true, Bool.or_eq_true,
      beq_iff_eq] at admitted
    obtain ⟨named, qualifies⟩ := admitted
    obtain ⟨front, back, rfl, frontSpelled, backSpelled⟩ := List.map_eq_append_iff.mp spelled
    obtain ⟨leaf, token, rfl, same, rfl⟩ := (below name (by simp)).exists_leaf named backSpelled
    obtain ⟨qualifier, rfl, written⟩ :=
      (below _ (by simp)).exists_qualifier qualifies frontSpelled
    exact ⟨⟨some qualifier, leaf⟩, rfl, written leaf token same⟩

/-- A number in a node of its own is a suffix with a mark before it. -/
theorem Shaped.exists_suffix {node : Node} (shaped : node.Shaped settings)
    {kinds : List TokenKind} {label : NodeKind} {mark : Lexeme}
    (holds : node.holds label kinds = true) (untexted : ∀ token, label ≠ .token token)
    (marks : ∀ number, label.spell [number] = mark :: number.lexemes)
    (spelled : tokens.map Token.lexeme = node.spelling) :
    ∃ number : Leaf kinds, Node.branch label [number.toNode] = node ∧
      SuffixWritten mark.1 (some number) tokens := by
  obtain ⟨kind, children, literal⟩ := node
  match children with
  | [child] =>
      simp only [Node.holds, Bool.and_eq_true, beq_iff_eq] at holds
      obtain ⟨rfl, token⟩ := holds
      obtain ⟨_, split, _, below, spelled⟩ := shaped.exists_children rfl untexted spelled
      cases split
      replace spelled := spelled.trans (marks _)
      obtain ⟨sign, rest, rfl, same, spelled⟩ := List.map_eq_cons_iff.mp spelled
      obtain ⟨number, single, rfl, numberSame, rfl⟩ :=
        (below child (by simp)).exists_leaf token spelled
      exact ⟨number, rfl, .present (congrArg Prod.fst same) numberSame⟩
  | [] | _ :: _ :: _ => cases holds

theorem kind_of_holds {node : Node} {label : NodeKind} {kinds : List TokenKind}
    (holds : node.holds label kinds = true) : node.kind = label := by
  obtain ⟨kind, children, literal⟩ := node
  match children with
  | [_] =>
      simp only [Node.holds, Bool.and_eq_true, beq_iff_eq] at holds
      exact holds.1
  | [] | _ :: _ :: _ => cases holds

/-- A word or phrase, the field before it and the number after it. -/
theorem exists_qualified {scope : Scope} {kinds loose : List TokenKind} {word : Node}
    {rest : List Node} (token : word.kind.isTokenOf kinds = true)
    (qualifiers : areQualifiers scope loose rest = true)
    (below : ∀ child ∈ word :: rest, child.Shaped settings)
    (spelled : tokens.map Token.lexeme =
      Spelled.qualified ⟨word.kind, word.spelling⟩ (Node.spelled rest)) :
    ∃ (leaf : Leaf kinds) (field : Option FieldReference) (number : Option (Leaf loose))
      (qualifier : List Token) (token : Token) (suffix : List Token),
      word :: rest = leaf.toNode :: Test.qualifiers field number ∧
        tokens = qualifier ++ token :: suffix ∧ QualifierWritten scope field qualifier ∧
        leaf.IsOf token ∧ SuffixWritten .tilde number suffix := by
  obtain ⟨before, suffix, rfl, beforeSpelled, suffixSpelled⟩ := List.map_eq_append_iff.mp spelled
  obtain ⟨qualifier, words, rfl, qualifierSpelled, wordSpelled⟩ :=
    List.map_eq_append_iff.mp beforeSpelled
  obtain ⟨leaf, single, rfl, same, rfl⟩ := (below word (by simp)).exists_leaf token wordSpelled
  have fieldOf {node : Node} (member : node ∈ rest) (kind : node.kind = .fieldRef)
      (spelled : qualifier.map Token.lexeme = node.spelling ++ [(.colon, ":")]) :
      ∃ field : FieldReference, field.toNode = node ∧ field.Qualifying qualifier := by
    obtain ⟨named, colons, rfl, fieldSpelled, colonSpelled⟩ := List.map_eq_append_iff.mp spelled
    obtain ⟨field, rfl, bare⟩ :=
      (below node (List.mem_cons_of_mem _ member)).exists_field kind fieldSpelled
    obtain ⟨colon, rfl, colonSame⟩ := List.map_eq_singleton_iff.mp colonSpelled
    exact ⟨field, rfl, .mk (.bare bare) (congrArg Prod.fst colonSame)⟩
  have numberOf {node : Node} (member : node ∈ rest) (holds : node.holds .fuzzy loose = true)
      (spelled : suffix.map Token.lexeme = node.spelling) :
      ∃ number : Leaf loose, Node.branch .fuzzy [number.toNode] = node ∧
        SuffixWritten .tilde (some number) suffix :=
    (below node (List.mem_cons_of_mem _ member)).exists_suffix holds (by simp) (fun _ => rfl)
      spelled
  rcases rest with _ | ⟨front, _ | ⟨fuzzy, _ | ⟨_, _⟩⟩⟩
  · obtain rfl := List.map_eq_nil_iff.mp qualifierSpelled
    obtain rfl := List.map_eq_nil_iff.mp suffixSpelled
    exact ⟨leaf, none, none, [], single, [], rfl, rfl, .absent, same, .absent⟩
  · simp only [areQualifiers, Bool.or_eq_true, Bool.and_eq_true, beq_iff_eq] at qualifiers
    rcases qualifiers with holds | ⟨rfl, kind⟩
    · simp only [Node.spelled, kind_of_holds holds, List.filter_cons, List.filter_nil, beq_iff_eq,
        reduceCtorEq, if_true, if_false, List.flatMap_cons, List.flatMap_nil,
        List.append_nil] at qualifierSpelled suffixSpelled
      obtain rfl := List.map_eq_nil_iff.mp qualifierSpelled
      obtain ⟨number, rfl, suffixWritten⟩ := numberOf (by simp) holds suffixSpelled
      exact ⟨leaf, none, some number, [], single, suffix, rfl, rfl, .absent, same, suffixWritten⟩
    · simp only [Node.spelled, kind, List.filter_cons, List.filter_nil, beq_iff_eq, reduceCtorEq,
        if_true, if_false, List.flatMap_cons, List.flatMap_nil,
        List.append_nil] at qualifierSpelled suffixSpelled
      obtain rfl := List.map_eq_nil_iff.mp suffixSpelled
      obtain ⟨field, rfl, qualifying⟩ := fieldOf (by simp) kind qualifierSpelled
      exact ⟨leaf, some field, none, qualifier, single, [], rfl, by simp, .present qualifying,
        same, .absent⟩
  · simp only [areQualifiers, Bool.and_eq_true, beq_iff_eq] at qualifiers
    obtain ⟨⟨rfl, kind⟩, holds⟩ := qualifiers
    simp only [Node.spelled, kind, kind_of_holds holds, List.filter_cons, List.filter_nil,
      beq_iff_eq, reduceCtorEq, if_true, if_false, List.flatMap_cons, List.flatMap_nil,
      List.append_nil] at qualifierSpelled suffixSpelled
    obtain ⟨field, rfl, qualifying⟩ := fieldOf (by simp) kind qualifierSpelled
    obtain ⟨number, rfl, suffixWritten⟩ := numberOf (by simp) holds suffixSpelled
    exact ⟨leaf, some field, some number, qualifier, single, suffix, rfl, by simp,
      .present qualifying, same, suffixWritten⟩
  · cases qualifiers

theorem Shaped.exists_closure {node : Node} (shaped : node.Shaped settings)
    (isMarker : node.kind.isMarker = true) :
    ∃ closure : Closure, closure.toNode = node ∧
      (Spelled.rangeOpening ⟨node.kind, node.spelling⟩).1 = closure.opening ∧
      (Spelled.rangeClosing ⟨node.kind, node.spelling⟩).1 = closure.closing := by
  cases kind : node.kind with
  | inclusive =>
      obtain ⟨children, rfl, admitted⟩ := shaped.exists_branch kind (by simp)
      match children with
      | [] => exact ⟨.inclusive, rfl, rfl, rfl⟩
  | exclusive =>
      obtain ⟨children, rfl, admitted⟩ := shaped.exists_branch kind (by simp)
      match children with
      | [] => exact ⟨.exclusive, rfl, rfl, rfl⟩
  | _ =>
      rw [kind] at isMarker
      cases isMarker

theorem Shaped.exists_distance {node : Node} (shaped : node.Shaped settings)
    (kind : node.kind = .distance) (spelled : tokens.map Token.lexeme = node.spelling) :
    ∃ (limit : Option WholeNumber) (star : Token) (between : List Token),
      Node.branch .distance (limit.toList.map Leaf.toNode) = node ∧ tokens = star :: between ∧
      star.kind = .star ∧ Test.DistanceWritten limit between := by
  obtain ⟨children, rfl, admitted, below, spelled⟩ :=
    shaped.exists_children kind (by simp) spelled
  match children with
  | [] =>
      obtain ⟨star, rfl, same⟩ := List.map_eq_singleton_iff.mp spelled
      exact ⟨none, star, [], rfl, rfl, congrArg Prod.fst same, .absent⟩
  | [number] =>
      obtain ⟨star, _, rfl, starSame, spelled⟩ := List.map_eq_cons_iff.mp spelled
      obtain ⟨opening, _, rfl, openingSame, spelled⟩ := List.map_eq_cons_iff.mp spelled
      obtain ⟨_, _, rfl, numberSpelled, spelled⟩ := List.map_eq_append_iff.mp spelled
      obtain ⟨closing, rfl, closingSame⟩ := List.map_eq_singleton_iff.mp spelled
      obtain ⟨limit, token, rfl, same, rfl⟩ :=
        (below number (by simp)).exists_leaf admitted numberSpelled
      exact ⟨some limit, star, [opening, token, closing], rfl, rfl, congrArg Prod.fst starSame,
        .limited (congrArg Prod.fst openingSame) same (congrArg Prod.fst closingSame)⟩

/-- Words with a distance between each two are the words of a proximity. -/
theorem exists_steps {tokens : List Token} {nodes : List Node} (spaced : areSpaced nodes = true)
    (below : ∀ child ∈ nodes, child.Shaped settings)
    (spelled : tokens.map Token.lexeme = (Node.spelled nodes).flatMap Spelled.lexemes) :
    ∃ (first : PlainWord) (steps : List (Option WholeNumber × PlainWord)) (token : Token)
      (rest : List Token), nodes = first.toNode :: steps.flatMap Test.stepNodes ∧
        tokens = token :: rest ∧ first.IsOf token ∧ Test.StepsWritten steps rest := by
  match nodes with
  | [word] =>
      simp only [Node.spelled, List.flatMap_cons, List.flatMap_nil, List.append_nil] at spelled
      obtain ⟨first, token, rfl, same, rfl⟩ := (below word (by simp)).exists_leaf spaced spelled
      exact ⟨first, [], token, [], rfl, rfl, same, .nil⟩
  | word :: distance :: rest =>
      simp only [areSpaced, Bool.and_eq_true, beq_iff_eq] at spaced
      obtain ⟨⟨wordToken, kind⟩, spaced⟩ := spaced
      obtain ⟨_, _, rfl, wordSpelled, laterSpelled⟩ := List.map_eq_append_iff.mp spelled
      obtain ⟨_, others, rfl, distanceSpelled, restSpelled⟩ :=
        List.map_eq_append_iff.mp laterSpelled
      obtain ⟨first, token, rfl, same, rfl⟩ :=
        (below word (by simp)).exists_leaf wordToken wordSpelled
      obtain ⟨limit, star, between, rfl, rfl, starKind, distanceWritten⟩ :=
        (below distance (by simp)).exists_distance kind distanceSpelled
      have belowRest : ∀ child ∈ rest, child.Shaped settings :=
        fun child member => below child (by simp [member])
      obtain ⟨next, steps, nextToken, later, rfl, rfl, nextSame, stepsWritten⟩ :=
        exists_steps spaced belowRest restSpelled
      exact ⟨first, (limit, next) :: steps, token, star :: between ++ nextToken :: later, rfl,
        by simp, same, .cons starKind distanceWritten nextSame stepsWritten⟩

/-- Field references with commas between them are the fields of a template. -/
theorem exists_fields {tokens : List Token} {nodes : List Node} (nonempty : nodes ≠ [])
    (kinds : ∀ child ∈ nodes, child.kind = .fieldRef)
    (below : ∀ child ∈ nodes, child.Shaped settings)
    (spelled : tokens.map Token.lexeme =
      [(TokenKind.comma, ",")].intercalate ((Node.spelled nodes).map Spelled.lexemes)) :
    ∃ fields : List FieldReference, fields.map FieldReference.toNode = nodes ∧
      Test.FieldsWritten fields tokens := by
  match nodes with
  | [node] =>
      simp only [Node.spelled, List.map_cons, List.map_nil, List.intercalate_singleton] at spelled
      obtain ⟨field, rfl, bare⟩ :=
        (below node (by simp)).exists_field (kinds node (by simp)) spelled
      exact ⟨[field], rfl, by simpa using Test.FieldsWritten.cons (.bare bare) .nil⟩
  | node :: next :: rest =>
      simp only [Node.spelled, List.map_cons, List.intercalate_cons_cons] at spelled
      obtain ⟨_, others, rfl, spelled, othersSpelled⟩ := List.map_eq_append_iff.mp spelled
      obtain ⟨named, commas, rfl, fieldSpelled, commaSpelled⟩ := List.map_eq_append_iff.mp spelled
      obtain ⟨comma, rfl, commaSame⟩ := List.map_eq_singleton_iff.mp commaSpelled
      obtain ⟨field, rfl, bare⟩ :=
        (below node (by simp)).exists_field (kinds node (by simp)) fieldSpelled
      have belowRest : ∀ child ∈ next :: rest, child.Shaped settings :=
        fun child member => below child (List.mem_cons_of_mem _ member)
      have kindsRest : ∀ child ∈ next :: rest, child.kind = .fieldRef :=
        fun child member => kinds child (List.mem_cons_of_mem _ member)
      obtain ⟨fields, same, fieldsWritten⟩ :=
        exists_fields (by simp) kindsRest belowRest othersSpelled
      refine ⟨field :: fields, by rw [List.map_cons, same], ?_⟩
      simpa using Test.FieldsWritten.comma (.bare bare) (congrArg Prod.fst commaSame) fieldsWritten

theorem Shaped.exists_range {scope : Scope} {node : Node} (shaped : node.Shaped settings)
    (kind : node.kind = .form scope .range) (spelled : tokens.map Token.lexeme = node.spelling) :
    ∃ test : Test, test.toNode scope = node ∧ test.RangeWritten tokens := by
  obtain ⟨children, rfl, admitted, below, spelled⟩ :=
    shaped.exists_children kind (by simp) spelled
  match children with
  | [lower, low, high, upper] =>
      simp only [NodeKind.admits_form, Form.admits_range, Bool.and_eq_true] at admitted
      obtain ⟨⟨⟨lowerMarker, lowToken⟩, highToken⟩, upperMarker⟩ := admitted
      obtain ⟨lowerClosure, rfl, opens, _⟩ := (below lower (by simp)).exists_closure lowerMarker
      obtain ⟨upperClosure, rfl, _, closes⟩ := (below upper (by simp)).exists_closure upperMarker
      obtain ⟨opening, _, rfl, openingSame, spelled⟩ := List.map_eq_cons_iff.mp spelled
      obtain ⟨_, closings, rfl, innerSpelled, closingSpelled⟩ := List.map_eq_append_iff.mp spelled
      obtain ⟨_, _, rfl, lowSpelled, upToSpelled⟩ := List.map_eq_append_iff.mp innerSpelled
      obtain ⟨upTo, _, rfl, upToSame, highSpelled⟩ := List.map_eq_cons_iff.mp upToSpelled
      obtain ⟨closing, rfl, closingSame⟩ := List.map_eq_singleton_iff.mp closingSpelled
      obtain ⟨lowBound, first, rfl, lowSame, rfl⟩ :=
        (below low (by simp)).exists_leaf lowToken lowSpelled
      obtain ⟨highBound, second, rfl, highSame, rfl⟩ :=
        (below high (by simp)).exists_leaf highToken highSpelled
      exact ⟨.range lowerClosure lowBound highBound upperClosure, rfl,
        .bracketed ((congrArg Prod.fst openingSame).trans opens) lowSame
          (congrArg Prod.fst upToSame) highSame ((congrArg Prod.fst closingSame).trans closes)⟩

theorem Shaped.exists_proximity {scope : Scope} {node : Node} (shaped : node.Shaped settings)
    (kind : node.kind = .form scope .proximity)
    (spelled : tokens.map Token.lexeme = node.spelling) :
    ∃ test : Test, test.toNode scope = node ∧ test.ProximityWritten tokens := by
  obtain ⟨children, rfl, admitted, below, spelled⟩ :=
    shaped.exists_children kind (by simp) spelled
  simp only [NodeKind.admits_form, Form.admits_proximity, Bool.and_eq_true,
    decide_eq_true_eq] at admitted
  obtain ⟨⟨_, several⟩, spaced⟩ := admitted
  have spelled : tokens.map Token.lexeme = (Node.spelled children).flatMap Spelled.lexemes := by
    cases children with
    | nil => cases spaced
    | cons => exact spelled
  obtain ⟨first, steps, token, rest, rfl, rfl, same, stepsWritten⟩ :=
    exists_steps spaced below spelled
  refine ⟨.proximity first steps, rfl, .mk same stepsWritten ?_⟩
  rintro rfl
  simp at several

theorem Shaped.exists_template {node : Node} (shaped : node.Shaped settings)
    (kind : node.kind = .template) (spelled : tokens.map Token.lexeme = node.spelling) :
    ∃ test : Test, test.toNode .query = node ∧ test.Written .query tokens := by
  obtain ⟨children, rfl, admitted, below, spelled⟩ :=
    shaped.exists_children kind (by simp) spelled
  simp only [NodeKind.admits_template, Bool.and_eq_true, Bool.not_eq_true',
    List.isEmpty_eq_false_iff, List.all_eq_true, beq_iff_eq] at admitted
  obtain ⟨nonempty, kinds⟩ := admitted
  rcases children with _ | ⟨child, _ | ⟨second, rest⟩⟩
  case nil => exact absurd rfl nonempty
  case cons.nil =>
    obtain ⟨percent, _, rfl, percentSame, spelled⟩ := List.map_eq_cons_iff.mp spelled
    obtain ⟨field, rfl, bare⟩ :=
      (below child (by simp)).exists_field (kinds child (by simp)) spelled
    exact ⟨.template [field], rfl, .template (congrArg Prod.fst percentSame) (.bare bare)⟩
  case cons.cons =>
    obtain ⟨percent, _, rfl, percentSame, spelled⟩ := List.map_eq_cons_iff.mp spelled
    obtain ⟨opening, _, rfl, openingSame, spelled⟩ := List.map_eq_cons_iff.mp spelled
    obtain ⟨inner, closings, rfl, innerSpelled, closingSpelled⟩ :=
      List.map_eq_append_iff.mp spelled
    obtain ⟨closing, rfl, closingSame⟩ := List.map_eq_singleton_iff.mp closingSpelled
    obtain ⟨fields, same, fieldsWritten⟩ := exists_fields nonempty kinds below innerSpelled
    refine ⟨.template fields, by rw [Test.toNode, same],
      .templates (congrArg Prod.fst percentSame) (congrArg Prod.fst openingSame) fieldsWritten ?_
        (congrArg Prod.fst closingSame)⟩
    rintro rfl
    cases same

/-- A node of a word or phrase is that of the test that its form builds. It is written as the marks
of the form, the field, and the word or phrase with its suffix. -/
theorem Shaped.exists_qualified_test {scope : Scope} {role : Form} {kinds loose : List TokenKind}
    {node : Node} (shaped : node.Shaped settings) (kind : node.kind = .form scope role)
    (build : Leaf kinds → Option FieldReference → Option (Leaf loose) → Test)
    (builds : ∀ word field number, (build word field number).toNode scope =
      Node.branch (.form scope role) (word.toNode :: Test.qualifiers field number))
    (rejects : role.admits settings scope [] = false)
    (admits : ∀ word rest, role.admits settings scope (word :: rest) =
      (word.kind.isTokenOf kinds && areQualifiers scope loose rest))
    (marks : List Lexeme)
    (spells : ∀ word rest, role.spell (word :: rest) = marks ++ word.qualified rest)
    (spelled : tokens.map Token.lexeme = node.spelling)
    (writes : ∀ {word field number} {front qualifier : List Token} {token : Token}
      {suffix : List Token}, front.map Token.lexeme = marks →
      QualifierWritten scope field qualifier → word.IsOf token →
      SuffixWritten .tilde number suffix →
      (build word field number).Written scope (front ++ (qualifier ++ token :: suffix))) :
    ∃ test : Test, test.toNode scope = node ∧ test.Written scope tokens := by
  obtain ⟨children, rfl, admitted, below, spelled⟩ :=
    shaped.exists_children kind (by simp) spelled
  rw [NodeKind.admits_form] at admitted
  rcases children with _ | ⟨word, rest⟩
  · rw [rejects] at admitted
    cases admitted
  rw [admits, Bool.and_eq_true] at admitted
  obtain ⟨wordToken, qualifiers⟩ := admitted
  rw [Node.spelled, NodeKind.spell, spells] at spelled
  obtain ⟨front, _, rfl, marked, spelled⟩ := List.map_eq_append_iff.mp spelled
  obtain ⟨leaf, field, number, qualifier, token, suffix, same, rfl, qualifierWritten, wordSame,
    suffixWritten⟩ := exists_qualified wordToken qualifiers below spelled
  exact ⟨build leaf field number, by rw [builds, same],
    writes marked qualifierWritten wordSame suffixWritten⟩

/-- The node of a single test is that of a test which is written with the tokens that spell it. -/
theorem Shaped.exists_test {scope : Scope} {node : Node} (shaped : node.Shaped settings)
    (isTest : node.kind.isTest scope = true) (single : node.kind ≠ .fieldGroup)
    (spelled : tokens.map Token.lexeme = node.spelling) :
    ∃ test : Test, test.toNode scope = node ∧ test.Written scope tokens := by
  cases kind : node.kind with
  | template =>
      rw [kind] at isTest
      obtain rfl : scope = .query := beq_iff_eq.mp isTest
      exact shaped.exists_template kind spelled
  | form inner role =>
      rw [kind] at isTest
      simp only [NodeKind.isTest, Bool.and_eq_true, beq_iff_eq] at isTest
      obtain ⟨rfl, isTest⟩ := isTest
      cases role with
      | range =>
          obtain ⟨test, same, written⟩ := shaped.exists_range kind spelled
          exact ⟨test, same, .span (.range written)⟩
      | proximity =>
          obtain ⟨test, same, written⟩ := shaped.exists_proximity kind spelled
          exact ⟨test, same, .span (.proximity written)⟩
      | term =>
          refine shaped.exists_qualified_test kind .term (fun _ _ _ => rfl) rfl
            (fun _ _ => rfl) [] (fun _ _ => rfl) spelled fun marked qualifier same suffix => ?_
          obtain rfl := List.map_eq_nil_iff.mp marked
          exact .term qualifier same suffix
      | phrase =>
          refine shaped.exists_qualified_test kind .phrase (fun _ _ _ => rfl) rfl
            (fun _ _ => rfl) [] (fun _ _ => rfl) spelled fun marked qualifier same suffix => ?_
          obtain rfl := List.map_eq_nil_iff.mp marked
          exact .phrase qualifier same suffix
      | exactTerm =>
          refine shaped.exists_qualified_test kind .exactTerm (fun _ _ _ => rfl) rfl
            (fun _ _ => rfl) [(.equals, "=")] (fun _ _ => rfl) spelled
            fun marked qualifier same suffix => ?_
          obtain ⟨mark, rfl, markSame⟩ := List.map_eq_singleton_iff.mp marked
          exact .exactTerm (congrArg Prod.fst markSame) qualifier same suffix
      | exactPhrase =>
          refine shaped.exists_qualified_test kind .exactPhrase (fun _ _ _ => rfl) rfl
            (fun _ _ => rfl) [(.equals, "=")] (fun _ _ => rfl) spelled
            fun marked qualifier same suffix => ?_
          obtain ⟨mark, rfl, markSame⟩ := List.map_eq_singleton_iff.mp marked
          exact .exactPhrase (congrArg Prod.fst markSame) qualifier same suffix
      | synonym =>
          refine shaped.exists_qualified_test kind .synonym (fun _ _ _ => rfl) rfl
            (fun _ _ => rfl) [(.tilde, "~")] (fun _ _ => rfl) spelled
            fun marked qualifier same suffix => ?_
          obtain ⟨mark, rfl, markSame⟩ := List.map_eq_singleton_iff.mp marked
          exact .synonym (congrArg Prod.fst markSame) qualifier same suffix
      | _ => cases isTest
  | fieldGroup => exact absurd kind single
  | _ =>
      rw [kind] at isTest
      cases isTest

end Node

end SearchQuery
