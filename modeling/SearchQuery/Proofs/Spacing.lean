import SearchQuery.Proofs.Accepted
import SearchQuery.Proofs.Spacing.Grammar
import SearchQuery.Proofs.Spacing.Points
import SearchQuery.Proofs.Spacing.Text
set_option autoImplicit false

/-!
# Blanks between tokens

A query that is accepted keeps its tree when blanks are put between its tokens or other blanks are
put there. Blanks that were there may be other ones, but not none.
-/

namespace SearchQuery

/-- Blanks for a number of words: a gap before each, which only the first word can do without, and
one at the end. -/
structure Spacing (words : Nat) where
  gaps : List String
  trailing : String
  length_eq : gaps.length = words
  gaps_blank : ∀ gap ∈ gaps, Text.Blank gap
  trailing_blank : Text.Blank trailing
  between_filled : ∀ gap ∈ gaps.tail, gap ≠ ""

def Spacing.spread {count : Nat} (spacing : Spacing count) (words : List String) : String :=
  Text.weave spacing.trailing spacing.gaps words

theorem parse_eq_ok_iff {settings : Settings} {query : String} {tree : Node} :
    parse settings query = .ok tree ↔
      ∃ tokens, tokenize query = .ok tokens ∧ parseTokens settings tokens = .ok tree := by
  rw [parse]
  cases tokenize query with
  | error lexError => simp
  | ok tokens => cases parsed : parseTokens settings tokens <;> simp [parsed]

/-- The tokens of an accepted query can all be cut from their own texts. -/
theorem stands_of_readTokens {mode : Mode} {query : String} {tokens : List Token}
    {operands : List Operand} (cut : tokenize query = .ok tokens)
    (accepted : readTokens mode tokens = .ok operands) : ∀ token ∈ tokens, token.Stands := by
  have standing := (tokenize_eq_ok_iff.mp cut).standing
  exact standing.stands (readTokens_written accepted).pointed.chain

/-- An accepted query has the same tree with any other blanks around its tokens, if there are some
between any two. -/
theorem parse_spread {settings : Settings} {query : String} {tree : Node}
    (accepted : parse settings query = .ok tree) :
    ∃ tokens, tokenize query = .ok tokens ∧ ∀ spacing : Spacing tokens.length,
      parse settings (spacing.spread (tokens.map Token.text)) = .ok tree := by
  obtain ⟨tokens, cut, parsed⟩ := parse_eq_ok_iff.mp accepted
  obtain ⟨operands, read, rfl⟩ := parseTokens_eq_ok_iff.mp parsed
  refine ⟨tokens, cut, fun spacing => ?_⟩
  have stands := stands_of_readTokens cut read
  obtain ⟨moved, scans, spread, _⟩ := Text.scans_weave spacing.trailing_blank stands
    spacing.length_eq spacing.gaps_blank spacing.between_filled 0
  have readAgain := readTokens_of_spread spread read
  exact parse_eq_ok_iff.mpr ⟨moved, tokenize_eq_ok_iff.mpr scans,
    parseTokens_eq_ok_iff.mpr ⟨operands, readAgain, rfl⟩⟩

/-- A range, a pattern and a suffix, each drawn apart by spaces and tabs. -/
theorem parse_spread_range :
    let query := "x:a..b é*~2"
    ∃ tree, parse .standard query = .ok tree ∧
      parse .standard "x :\ta .. b\té* ~ 2 " = .ok tree := by
  intro query
  have characters : query.toList = ['x', ':', 'a', '.', '.', 'b', ' ', 'é', '*', '~', '2'] :=
    String.toList_ofList
  have cut : tokenize query = .ok [⟨.id, "x", 0, 1⟩, ⟨.colon, ":", 1, 2⟩, ⟨.id, "a", 2, 3⟩,
      ⟨.dotDot, "..", 3, 5⟩, ⟨.id, "b", 5, 6⟩, ⟨.prefixWord, "é*", 7, 10⟩, ⟨.tilde, "~", 10, 11⟩,
      ⟨.integer, "2", 11, 12⟩] := by
    rw [tokenize, characters]
    rfl
  obtain ⟨tree, parsed⟩ : ∃ tree, parse .standard query = .ok tree := by
    rw [parse, cut]
    exact ⟨_, rfl⟩
  obtain ⟨tokens, again, spaced⟩ := parse_spread parsed
  obtain rfl := Except.ok.inj (cut.symm.trans again)
  have none : Text.Blank "" := Text.blank_ofList (rfl : [].all Text.isBlank = true)
  have space : Text.Blank " " := Text.blank_ofList (rfl : [' '].all Text.isBlank = true)
  have tab : Text.Blank "\t" := Text.blank_ofList (rfl : ['\t'].all Text.isBlank = true)
  let spacing : Spacing 8 :=
    { gaps := ["", " ", "\t", " ", " ", "\t", " ", " "]
      trailing := " "
      length_eq := rfl
      gaps_blank := by simp [none, space, tab]
      trailing_blank := space
      between_filled := by decide }
  have text : Text.weave " " ["", " ", "\t", " ", " ", "\t", " ", " "]
      ["x", ":", "a", "..", "b", "é*", "~", "2"] = "x :\ta .. b\té* ~ 2 " := by decide
  exact ⟨tree, parsed, text ▸ spaced spacing⟩

end SearchQuery
