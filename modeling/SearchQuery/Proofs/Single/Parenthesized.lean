import SearchQuery.Proofs.Completion
import SearchQuery.Proofs.Completion.Levels
import SearchQuery.Proofs.Single
set_option autoImplicit false

/-!
# Queries in parentheses

A query whose parentheses leave a level to spare may be put in parentheses. It is then the body of a
single operand without sign and boost, and its tree is unchanged within that operand: the closing
parenthesis ends operands exactly as the end of the query does.
-/

namespace SearchQuery

open Reading Grammar

/-- Parentheses around operands are a group that takes every token. -/
theorem Grammar.run_innerGroup_of_tokens_iff {opening closing : Token} (opens : opening.kind = .lparen)
    (closes : closing.kind = .rparen) (scope : Scope) (tokens : List Token)
    (inner : List Operand) :
    (innerGroup scope).run (opening :: (tokens ++ [closing])) = .ok (inner, []) ↔
      (operands scope (operand innerLevels scope)).run tokens = .ok (inner, []) := by
  have endable : Endable (operands scope (operand innerLevels scope)) :=
    operands_endable operand_written operand_swaps
  simp only [innerGroup, group, run_within_eq_ok_iff, run_bind_eq_ok_iff, run_take_eq_ok_iff,
    run_pure_eq_ok_iff]
  constructor
  · intro accepted
    obtain ⟨_, _, ⟨_, _, opened⟩, _, _, innerRead, _, _, ⟨last, _, rfl⟩, rfl, rfl⟩ := accepted
    obtain ⟨_, rfl⟩ := List.cons.inj opened
    obtain ⟨taken, split, _⟩ := operands_written operand_written innerRead
    obtain ⟨rfl, _⟩ := List.append_inj' split rfl
    rw [split] at innerRead
    simpa using endable.again .all innerRead
  · intro innerRead
    have closed : (operands scope (operand innerLevels scope)).run (tokens ++ [closing]) =
        .ok (inner, [closing]) := by
      apply endable.again (.closed closes)
      rwa [List.append_nil]
    exact ⟨_, _, ⟨opening, opening.leaf_isOf opens, rfl⟩, inner, [closing], closed, _, [],
      ⟨closing, closing.leaf_isOf closes, rfl⟩, rfl, rfl⟩

/-- A query is read with one level less where its parentheses leave one to spare. -/
theorem readTokens_eq_ok_iff_innerLevels {mode : Mode} (full : mode.dialect = .full)
    {tokens : List Token} (shallow : Shallow innerLevels tokens) {read : List Operand} :
    readTokens mode tokens = .ok read ↔
      (operands .query (operand innerLevels .query)).run tokens = .ok (read, []) := by
  have notDeep : Shallow maxLevels tokens := by
    intro front inside
    exact Int.lt_trans (shallow inside) (by decide)
  rw [readTokens_eq_ok_iff, full, readQuery]
  constructor
  · intro accepted
    obtain ⟨_, run⟩ := accepted
    simp only [query, run_within_eq_ok_iff, run_bind_eq_ok_iff, run_atEnd_eq_ok_iff,
      run_pure_eq_ok_iff] at run
    obtain ⟨_, _, operandsRead, _, _, ⟨rfl, rfl⟩, rfl, rfl⟩ := run
    exact run_operands_follows operand_written (run_operand_follows maxLevels) shallow operandsRead
  · intro operandsRead
    simp only [query, run_within_eq_ok_iff, run_bind_eq_ok_iff, run_atEnd_eq_ok_iff,
      run_pure_eq_ok_iff]
    exact ⟨[], read, [],
      run_operands_follows operand_written (run_operand_follows innerLevels) notDeep operandsRead,
      (), [], ⟨rfl, rfl⟩, rfl, rfl⟩

variable {settings : Settings}

/-- A query has a tree exactly if it has, in parentheses, the tree of a single operand with that
tree for its body. -/
theorem parseTokens_parenthesized_iff (full : settings.mode.dialect = .full)
    {opening closing : Token} (opens : opening.kind = .lparen) (closes : closing.kind = .rparen)
    {tokens : List Token}
    (shallow : ∀ front, front <+: tokens → (front.countP fun token => token.kind = .lparen) <
      63 + front.countP fun token => token.kind = .rparen) {tree : Node} :
    parseTokens settings tokens = .ok tree ↔
      parseTokens settings (opening :: (tokens ++ [closing])) =
        .ok (settings.sole .query tree) := by
  have spare : Shallow innerLevels tokens := by
    intro front inside
    have bound := shallow front inside
    rw [opened_eq_countP, innerLevels]
    omega
  rw [parseTokens_group_iff full _ opens, parseTokens_eq_ok_iff]
  simp only [run_innerGroup_of_tokens_iff opens closes, readTokens_eq_ok_iff_innerLevels full spare]
  rfl

/-- The query `a * b OR`, whose last word is an operator nowhere, where adjacent operands are
disjoined. -/
theorem parenthesized_trailing_or :
    let settings : Settings := { mode := .defaultDisjunction }
    let opening : Token := ⟨.lparen, "(", 0, 1⟩
    let closing : Token := ⟨.rparen, ")", 9, 10⟩
    let tokens : List Token :=
      [⟨.id, "a", 1, 2⟩, ⟨.star, "*", 3, 4⟩, ⟨.id, "b", 5, 6⟩, ⟨.or, "OR", 7, 9⟩]
    ∃ tree, parseTokens settings tokens = .ok tree ∧
      parseTokens settings (opening :: (tokens ++ [closing])) =
        .ok (.branch (.form .query .disjunction) [.branch (.form .query .conjunction)
          [.branch (.form .query .default) [tree]]]) := by
  intro settings opening closing tokens
  have accepted : parseTokens settings tokens = .ok _ := rfl
  have shallow : ∀ front ∈ tokens.inits, (front.countP fun token => token.kind = .lparen) <
      63 + front.countP fun token => token.kind = .rparen := by decide
  exact ⟨_, accepted, (parseTokens_parenthesized_iff rfl rfl rfl
    fun front inside => shallow front ((List.mem_inits front tokens).mpr inside)).mp accepted⟩

end SearchQuery
