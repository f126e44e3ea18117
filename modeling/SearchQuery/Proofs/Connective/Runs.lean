import SearchQuery.Query.Tree
set_option autoImplicit false

/-!
# Runs under two arrangements

Breaking items at fewer links joins runs and does nothing else: the runs of the finer arrangement
are pieces of those of the coarser one. A list of items is looked at from its first item on, since
the link of that item is the only one that breaks nothing.
-/

namespace SearchQuery

variable {α β : Type}

/-- The lists of a coarse splitting, each cut into lists of a fine one. -/
def Refines (fine coarse : List (List α)) : Prop :=
  ∃ pieces : List (List (List α)), pieces.flatten = fine ∧ pieces.map List.flatten = coarse

namespace Arrangement

/-- The items after a first one: those that are in its run still, and the runs after it. -/
def following (arrangement : Arrangement) : List (Link × α) → List α × List (List α)
  | [] => ([], [])
  | (link, item) :: rest =>
      if arrangement.breaksAt link then
        ([], (item :: (arrangement.following rest).1) :: (arrangement.following rest).2)
      else
        (item :: (arrangement.following rest).1, (arrangement.following rest).2)

theorem runs_cons (arrangement : Arrangement) (first : Link × α) (items : List (Link × α)) :
    arrangement.runs (first :: items) =
      (first.2 :: (arrangement.following items).1) :: (arrangement.following items).2 := by
  induction items generalizing first with
  | nil => rfl
  | cons next rest ih =>
      obtain ⟨link, item⟩ := next
      rw [runs, ih, following]
      dsimp only
      split <;> rfl

theorem following_map (arrangement : Arrangement) (change : α → β) (items : List (Link × α)) :
    arrangement.following (items.map fun item => (item.1, change item.2)) =
      ((arrangement.following items).1.map change,
        (arrangement.following items).2.map (List.map change)) := by
  induction items with
  | nil => rfl
  | cons next rest ih =>
      simp only [List.map_cons, following, ih]
      split <;> rfl

theorem runs_map (arrangement : Arrangement) (change : α → β) (items : List (Link × α)) :
    arrangement.runs (items.map fun item => (item.1, change item.2)) =
      (arrangement.runs items).map (List.map change) := by
  cases items with
  | nil => rfl
  | cons first rest => simp only [List.map_cons, runs_cons, following_map]

theorem runs_congr {first second : Arrangement}
    (breaks : ∀ link, first.breaksAt link = second.breaksAt link) (items : List (Link × α)) :
    first.runs items = second.runs items := by
  cases items with
  | nil => rfl
  | cons head rest =>
      have following : first.following rest = second.following rest := by
        induction rest with
        | nil => rfl
        | cons next rest ih => simp only [Arrangement.following, breaks, ih]
      rw [runs_cons, runs_cons, following]

/-- An arrangement that breaks at every link at which another one breaks has finer runs. -/
theorem runs_refines {coarse fine : Arrangement}
    (breaks : ∀ link, coarse.breaksAt link = true → fine.breaksAt link = true)
    (items : List (Link × α)) : Refines (fine.runs items) (coarse.runs items) := by
  cases items with
  | nil => exact ⟨[], rfl, rfl⟩
  | cons first rest =>
      rw [runs_cons, runs_cons]
      induction rest generalizing first with
      | nil => exact ⟨[[[first.2]]], rfl, rfl⟩
      | cons next rest ih =>
          obtain ⟨link, item⟩ := next
          obtain ⟨pieces, flat, joined⟩ := ih (link, item)
          rw [following, following]
          by_cases coarseBreaks : coarse.breaksAt link = true
          · rw [if_pos coarseBreaks, if_pos (breaks link coarseBreaks)]
            exact ⟨[[first.2]] :: pieces, by simp [flat], by simp [joined]⟩
          -- The first item joins the first run of the coarse splitting, and no piece is empty.
          · obtain ⟨group, groups, rfl, joinedGroup, joinedGroups⟩ := List.map_eq_cons_iff.mp joined
            rw [if_neg coarseBreaks]
            by_cases fineBreaks : fine.breaksAt link = true
            · rw [if_pos fineBreaks]
              refine ⟨([first.2] :: group) :: groups, ?_, ?_⟩
              · simpa using flat
              · simp [joinedGroup, joinedGroups]
            · rw [if_neg fineBreaks]
              cases group with
              | nil => cases joinedGroup
              | cons piece others =>
                  obtain ⟨rfl, flat⟩ := List.cons.inj flat
                  let longer := first.2 :: item :: (fine.following rest).1
                  refine ⟨(longer :: others) :: groups, ?_, ?_⟩
                  · simpa [longer] using flat
                  · simpa [longer, joinedGroups] using joinedGroup

end Arrangement

end SearchQuery
