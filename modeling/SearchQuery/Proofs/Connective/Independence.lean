import SearchQuery.Proofs.Connective.Agreement
import SearchQuery.Proofs.Connective.Levels
set_option autoImplicit false

/-!
# Settings choose between groupings only

Whether adjacent operands are conjoined or disjoined decides into which conjunctions the operands of
a level are put, and nothing else: the same token lists are accepted, the same errors are reported,
and the operands of each level are the same.
-/

namespace SearchQuery

def Level.operands (level : Level) : List Node :=
  level.conjunctions.flatten

/-- A level of a tree and the same level of the tree for other settings. Where the first settings
conjoin adjacent operands, the other settings can only split further. -/
structure Level.Regrouped (settings : Settings) (coarse fine : Level) : Prop where
  scope : coarse.scope = fine.scope
  operands : coarse.operands = fine.operands
  refines : settings.conjoins coarse.scope = true → Refines fine.conjunctions coarse.conjunctions

/-- Where adjacent operands are conjoined, only an operator breaks, and it breaks in every
arrangement. -/
theorem Arrangement.runs_refines_conjoining {α : Type} (fine : Arrangement)
    (items : List (Link × α)) : Refines (fine.runs items) (conjoining.runs items) := by
  refine runs_refines (fun link breaks => ?_) items
  cases link with
  | or => rfl
  | opening | adjacent | and => cases breaks

theorem Level.Paired.regrouped {first second : Settings} (firstFull : first.mode.dialect = .full)
    {coarse fine : Level}
    (paired : Paired (Arrangement.ofSettings first) (Arrangement.ofSettings second) coarse fine) :
    Regrouped first coarse fine := by
  cases paired with
  | mk scope items =>
      refine ⟨rfl, ?_, fun conjoins => ?_⟩
      · rw [operands, operands, Arrangement.flatten_runs, Arrangement.flatten_runs]
      · rw [Arrangement.ofSettings_of_full firstFull scope, if_pos conjoins]
        exact Arrangement.runs_refines_conjoining _ items

/-- Reading does not depend on the settings, within the full language. -/
theorem readTokens_of_full {mode : Mode} (full : mode.dialect = .full) (tokens : List Token) :
    readTokens mode tokens = readTokens .defaultConjunction tokens := by
  cases mode with
  | cmis => cases full
  | defaultConjunction | defaultDisjunction => rfl

/-- The settings of the full language neither decide what is accepted nor what error is reported.
Their trees are equal once each level is flattened, and where adjacent operands are conjoined under
the first settings, each conjunction is made of whole conjunctions under the second. All of it holds
of the layered grammar, where a connective has loops of its own. -/
theorem parseTokens_connectives {first second : Settings} (firstFull : first.mode.dialect = .full)
    (secondFull : second.mode.dialect = .full) (tokens : List Token) :
    (Layered.parseTokens first tokens = parseTokens first tokens ∧
      Layered.parseTokens second tokens = parseTokens second tokens) ∧
    (∀ error, parseTokens first tokens = .error error ↔ parseTokens second tokens = .error error) ∧
    ∀ left right, parseTokens first tokens = .ok left → parseTokens second tokens = .ok right →
      left.flat = right.flat ∧
        List.Forall₂ (Level.Regrouped first) left.levels right.levels := by
  -- The operands are read once for both; only their trees are compared.
  have sameRead : readTokens first.mode tokens = readTokens second.mode tokens := by
    rw [readTokens_of_full firstFull, readTokens_of_full secondFull]
  refine ⟨⟨Layered.parseTokens_eq firstFull tokens, Layered.parseTokens_eq secondFull tokens⟩,
    fun error => ?_, fun left right leftAccepted rightAccepted => ?_⟩
  · rw [parseTokens_eq_error_iff, parseTokens_eq_error_iff, sameRead]
  · obtain ⟨operands, leftRead, rfl⟩ := parseTokens_eq_ok_iff.mp leftAccepted
    obtain ⟨others, rightRead, rfl⟩ := parseTokens_eq_ok_iff.mp rightAccepted
    obtain rfl : operands = others := by
      rw [sameRead, rightRead] at leftRead
      exact (Except.ok.inj leftRead).symm
    constructor
    · rw [queryTree, queryTree, Arrangement.flat_junction, Arrangement.flat_junction,
        Operand.flatItems_linkedNodes _ (Arrangement.ofSettings second)]
    · have paired := Operand.paired_junction (Arrangement.ofSettings first)
        (Arrangement.ofSettings second) .query (Operand.paired_linkedNodes _ _ .query operands)
      exact paired.imp fun _ _ level => level.regrouped firstFull

/-- The conjunctions of `a b OR (c d)`, by the number of their operands. -/
theorem levels_of_adjacent_words :
    let tokens : List Token :=
      [⟨.id, "a", 0, 1⟩, ⟨.id, "b", 2, 3⟩, ⟨.or, "OR", 4, 6⟩, ⟨.lparen, "(", 7, 8⟩,
        ⟨.id, "c", 8, 9⟩, ⟨.id, "d", 10, 11⟩, ⟨.rparen, ")", 11, 12⟩]
    let sizes (tree : Node) := tree.levels.map fun level => level.conjunctions.map List.length
    ∃ left right, parseTokens .standard tokens = .ok left ∧
      parseTokens ⟨.defaultDisjunction, true⟩ tokens = .ok right ∧
      sizes left = [[2, 1], [2]] ∧ sizes right = [[1, 1, 1], [1, 1]] ∧
      left.flat = right.flat ∧
      List.Forall₂ (Level.Regrouped .standard) left.levels right.levels := by
  intro tokens sizes
  have connectives := parseTokens_connectives (show Settings.standard.mode.dialect = .full from rfl)
    (show (Settings.mk .defaultDisjunction true).mode.dialect = .full from rfl) tokens
  exact ⟨_, _, rfl, rfl, rfl, rfl, connectives.2.2 _ _ rfl rfl⟩

end SearchQuery
