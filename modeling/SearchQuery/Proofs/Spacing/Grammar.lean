import SearchQuery.Proofs.Restated.Grammar
set_option autoImplicit false

/-!
# The grammar does not see where tokens stand

Every reading of either grammar carries over to a list that is spread out. A suffix is rejected for
touching the one before it, and in a list that is spread out no suffix is.
-/

namespace SearchQuery

open Reading

theorem Spread.drop {left right : List Token} (spread : Spread left right) (count : Nat) :
    Spread (left.drop count) (right.drop count) := by
  induction count generalizing left right with
  | zero => exact spread
  | succ count ih =>
      cases spread.alike with
      | nil => exact spread
      | cons _ _ => exact ih (Spread.hereditary.tail spread)

/-- Tokens that are spread out say what they said before. -/
theorem Spread.restated {left right : List Token} (spread : Spread left right) :
    Restated left right := by
  constructor
  · exact spread.alike.imp fun _ _ like => .like like
  · exact .inl spread.alike
  · intro count stacked
    rw [(spread.drop count).apart.stackedSuffixAhead_eq_false] at stacked
    cases stacked

namespace Grammar

namespace Cmis

theorem test_carries : Carries Spread Cmis.test := by
  unfold Cmis.test
  refine .within _ (.look fun left right spread => ?_)
  rw [spread.alike.nextIn_eq, spread.alike.nextIs_eq]
  split
  · exact .bind (.takeOneOf Spread.hereditary (by simp)) fun _ => .pure _
  · split
    · exact .bind (.take Spread.hereditary (by decide)) fun _ => .pure _
    · exact .of_fail _ _ _

theorem item_carries (link : Link) : Carries Spread (item link) := by
  unfold item
  refine .within _ (.bind (.look fun left right spread => ?_) fun _ =>
    .bind Cmis.test_carries fun _ => .pure _)
  rw [spread.alike.nextIs_eq]
  split
  · exact .bind (.advance Spread.hereditary) fun _ => .pure _
  · exact .pure _

theorem requireItem_carries : Carries Spread requireItem := by
  unfold requireItem
  refine .look fun left right spread => ?_
  rw [spread.alike.isEmpty_eq, spread.alike.dividerAhead_eq]
  split
  · exact .of_fail _ _ _
  · exact .pure ()

theorem laterItems_carries (limit : Nat) : Carries Spread (laterItems limit) := by
  induction limit with
  | zero => exact .pure []
  | succ limit ih =>
      unfold laterItems
      refine .look fun left right spread => ?_
      rw [spread.alike.cmisLinkAhead?_eq]
      split
      · exact .pure []
      · exact .bind (takeLink_carries Spread.hereditary _) fun _ =>
          .bind (.within _ (.bind requireItem_carries fun _ => item_carries _)) fun _ =>
            .bind ih fun _ => .pure _

theorem items_carries : Carries Spread items := by
  unfold items
  refine .within _ (.bind (.within _ (.bind requireItem_carries fun _ => item_carries _)) fun _ =>
    .bind (.look fun left right spread => ?_) fun _ => .pure _)
  rw [spread.alike.length_eq]
  exact laterItems_carries _

theorem query_carries : Carries Spread Cmis.query :=
  .within _ (.bind items_carries fun _ => .bind (.atEnd Spread.hereditary) fun _ => .pure _)

end Cmis

end Grammar

/-- Operands are read alike from tokens that are spread out. -/
theorem readTokens_of_spread {mode : Mode} {left right : List Token} (spread : Spread left right)
    {operands : List Operand} (accepted : readTokens mode left = .ok operands) :
    readTokens mode right = .ok operands := by
  cases dialect : mode.dialect with
  | full => exact readTokens_of_restated dialect spread.restated accepted
  | cmis =>
      apply readTokens_of_carries ?_ spread accepted
      rw [dialect, readQuery]
      exact Grammar.Cmis.query_carries

end SearchQuery
