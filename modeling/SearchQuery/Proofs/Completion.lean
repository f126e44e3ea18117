import Mathlib.Data.List.Infix
import SearchQuery.Proofs.Completion.Queries
set_option autoImplicit false

/-!
# Errors stand behind viable prefixes

The tokens before the place of an error are the beginning of some query: nothing is consumed that no
query could go on from. Parentheses that are nested too deep are an error of their own, at a place
where a shallower query could go on, and are left out here.
-/

namespace SearchQuery

open Reading Grammar

theorem opened_eq_countP (tokens : List Token) :
    opened tokens = (tokens.countP fun token => token.kind = .lparen : Int) -
      (tokens.countP fun token => token.kind = .rparen : Int) := by
  induction tokens with
  | nil => rfl
  | cons token rest ih =>
      rw [opened_cons, ih, Token.opens, List.countP_cons, List.countP_cons]
      by_cases opens : token.kind = .lparen
      · simp [opens]
        omega
      · by_cases closes : token.kind = .rparen
        · simp [closes]
          omega
        · simp [opens, closes]

/-- The place of a failure tells apart the tokens before and behind it. -/
theorem Failure.take_locate {failure : Failure} {tokens front : List Token}
    (split : tokens = front ++ failure.ahead) :
    tokens.take (failure.locate tokens).position.index = front := by
  subst split
  rw [locate, List.length_append, Nat.add_sub_cancel, List.take_left]

/-- Where a token list is no query and its parentheses are not too deep, the tokens before the error
are the beginning of a query. -/
theorem parseTokens_completable {settings : Settings} (full : settings.mode.dialect = .full)
    {tokens : List Token}
    (shallow : ∀ front, front <+: tokens → (front.countP fun token => token.kind = .lparen) <
      64 + front.countP fun token => token.kind = .rparen)
    {error : ParseError} (rejected : parseTokens settings tokens = .error error) :
    ∃ extension tree,
      parseTokens settings (tokens.take error.position.index ++ extension) = .ok tree := by
  have notDeep : Shallow maxLevels tokens := by
    intro front inside
    have bound := shallow front inside
    rw [opened_eq_countP, maxLevels]
    omega
  obtain ⟨failure, read, rfl⟩ := parseTokens_eq_error_iff.mp rejected
  have run := readTokens_eq_error_iff.mp read
  rw [full] at run
  obtain ⟨front, extension, operands, split, accepted⟩ :=
    exists_of_stops_query notDeep ⟨failure, run, rfl⟩
  refine ⟨extension, queryTree settings operands, ?_⟩
  rw [Failure.take_locate split]
  refine parseTokens_eq_ok_iff.mpr ⟨operands, readTokens_eq_ok_iff.mpr ⟨[], ?_⟩, rfl⟩
  rw [full]
  exact accepted

/-- A boost that lacks its number, in parentheses that are still open. -/
theorem boost_without_factor_completable :
    let tokens : List Token :=
      [⟨.lparen, "(", 0, 1⟩, ⟨.id, "a", 1, 2⟩, ⟨.star, "*", 3, 4⟩, ⟨.id, "b", 5, 6⟩,
        ⟨.caret, "^", 6, 7⟩, ⟨.star, "*", 7, 8⟩]
    ∃ error, parseTokens .standard tokens = .error error ∧ error.position.index = 5 ∧
      ∃ extension tree, parseTokens .standard (tokens.take 5 ++ extension) = .ok tree := by
  intro tokens
  obtain ⟨error, rejected, index⟩ : ∃ error, parseTokens .standard tokens = .error error ∧
      error.position.index = 5 := ⟨_, rfl, rfl⟩
  have shallow : ∀ front ∈ tokens.inits, (front.countP fun token => token.kind = .lparen) <
      64 + front.countP fun token => token.kind = .rparen := by decide
  have completed := parseTokens_completable rfl
    (fun front inside => shallow front ((List.mem_inits front tokens).mpr inside)) rejected
  rw [index] at completed
  exact ⟨error, rejected, index, completed⟩

end SearchQuery
