import SearchQuery.Proofs.Restated.Grammar
set_option autoImplicit false

/-!
# Keywords for symbols

The operators `||`, `&&` and `!` may be written `OR`, `AND` and `NOT`. A query that is accepted with
symbols is accepted with keywords in their places, and has the same tree. Stars and keywords that
were there before are left out, because a keyword put next to them may be taken for a word.
-/

namespace SearchQuery

open Grammar

/-- The second token is the first one, or a keyword in place of its symbol. -/
inductive Token.Respelled : Token → Token → Prop where
  | kept (token : Token) : Respelled token token
  | keyword {symbol keyword : Token} :
      symbol.kind.keyword? = some keyword.kind → symbol.start = keyword.start →
      symbol.stop = keyword.stop → Respelled symbol keyword

namespace Token.Respelled

variable {first second : Token}

theorem restated (respelled : first.Respelled second) : first.Restated second := by
  cases respelled with
  | kept => exact .like ⟨rfl, rfl⟩
  | keyword same _ _ => exact .keyword same

theorem span_eq (respelled : first.Respelled second) :
    first.start = second.start ∧ first.stop = second.stop := by
  cases respelled with
  | kept => exact ⟨rfl, rfl⟩
  | keyword _ start stop => exact ⟨start, stop⟩

end Token.Respelled

variable {symbols words : List Token}

/-- Suffixes touch as they did, since keywords stand where the symbols stood. -/
theorem stackedSuffixAhead_eq_of_respelled
    (respelled : List.Forall₂ Token.Respelled symbols words) :
    stackedSuffixAhead symbols = stackedSuffixAhead words := by
  cases respelled with
  | nil => rfl
  | cons _ later =>
      cases later with
      | nil => rfl
      | cons number later =>
          cases later with
          | nil => rfl
          | @cons next other rest others same later =>
              have akin : Akin (next :: rest) (other :: others) :=
                (List.Forall₂.cons same later).imp fun _ _ same => same.restated.akin
              simp only [stackedSuffixAhead, number.span_eq.2, same.span_eq.1,
                akin.numericSuffixAhead_eq]

theorem Restated.of_respelled (respelled : List.Forall₂ Token.Respelled symbols words)
    (plain : ∀ token ∈ symbols, token.kind ∉ [TokenKind.and, .or, .star]) :
    Restated symbols words := by
  constructor
  · exact respelled.imp fun _ _ same => same.restated
  · exact .inr plain
  · intro count stacked
    rw [stackedSuffixAhead_eq_of_respelled (List.forall₂_drop count respelled)]
    exact stacked

variable {settings : Settings}

/-- A query of the full language keeps its tree when keywords are written for symbols, if it has no
stars and neither `AND` nor `OR` among its words. -/
theorem parseTokens_of_keywords (full : settings.mode.dialect = .full)
    (plain : ∀ token ∈ symbols, token.kind ∉ [TokenKind.and, .or, .star])
    (respelled : List.Forall₂ Token.Respelled symbols words) {tree : Node}
    (accepted : parseTokens settings symbols = .ok tree) : parseTokens settings words = .ok tree := by
  obtain ⟨operands, read, same⟩ := parseTokens_eq_ok_iff.mp accepted
  have again := readTokens_of_restated full (.of_respelled respelled plain) read
  exact parseTokens_eq_ok_iff.mpr ⟨operands, again, same⟩

/-- The query `! a || (b ! c && d)`, written `NOT a OR (b NOT c AND d)`. -/
theorem keywords_of_negated_alternatives :
    let symbols : List Token :=
      [⟨.exclamation, "!", 0, 1⟩, ⟨.id, "a", 2, 3⟩, ⟨.barBar, "||", 4, 6⟩, ⟨.lparen, "(", 7, 8⟩,
        ⟨.id, "b", 8, 9⟩, ⟨.exclamation, "!", 10, 11⟩, ⟨.id, "c", 12, 13⟩,
        ⟨.ampAmp, "&&", 14, 16⟩, ⟨.id, "d", 17, 18⟩, ⟨.rparen, ")", 18, 19⟩]
    let words : List Token :=
      [⟨.not, "NOT", 0, 1⟩, ⟨.id, "a", 2, 3⟩, ⟨.or, "OR", 4, 6⟩, ⟨.lparen, "(", 7, 8⟩,
        ⟨.id, "b", 8, 9⟩, ⟨.not, "NOT", 10, 11⟩, ⟨.id, "c", 12, 13⟩, ⟨.and, "AND", 14, 16⟩,
        ⟨.id, "d", 17, 18⟩, ⟨.rparen, ")", 18, 19⟩]
    ∃ tree, parseTokens .standard symbols = .ok tree ∧ parseTokens .standard words = .ok tree := by
  intro symbols words
  have plain : ∀ token ∈ symbols, token.kind ∉ [TokenKind.and, .or, .star] := by decide
  have respelled : List.Forall₂ Token.Respelled symbols words :=
    .cons (.keyword rfl rfl rfl) <| .cons (.kept _) <| .cons (.keyword rfl rfl rfl) <|
      .cons (.kept _) <| .cons (.kept _) <| .cons (.keyword rfl rfl rfl) <| .cons (.kept _) <|
        .cons (.keyword rfl rfl rfl) <| .cons (.kept _) <| .cons (.kept _) .nil
  have accepted : parseTokens .standard symbols = .ok _ := rfl
  exact ⟨_, accepted, parseTokens_of_keywords rfl plain respelled accepted⟩

end SearchQuery
