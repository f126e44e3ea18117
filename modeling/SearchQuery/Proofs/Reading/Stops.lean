import SearchQuery.Grammar.Lookahead
import SearchQuery.Proofs.Reading
set_option autoImplicit false

/-!
# Where a reading fails

The counterpart of the equivalences for successful readings. They take a failing reading apart until
what is left is the one token, or the look at one, that it failed at.
-/

namespace SearchQuery.Reading

open Grammar

variable {α β : Type} {tokens ahead : List Token}

/-- A reading fails, and these tokens were left when it did. -/
def Stops (reading : Reading α) (tokens ahead : List Token) : Prop :=
  ∃ failure, reading.run tokens = .error failure ∧ failure.ahead = ahead

theorem not_stops_of_ok {reading : Reading α} {result : α × List Token}
    (accepted : reading.run tokens = .ok result) : ¬ Stops reading tokens ahead := by
  rintro ⟨failure, rejected, _⟩
  rw [accepted] at rejected
  cases rejected

@[simp]
theorem not_stops_pure (value : α) : ¬ Stops (Pure.pure value) tokens ahead :=
  not_stops_of_ok (run_pure value tokens)

@[simp]
theorem not_stops_wouldSucceed (reading : Reading α) : ¬ Stops (wouldSucceed reading) tokens ahead :=
  not_stops_of_ok (run_wouldSucceed reading tokens)

@[simp]
theorem stops_fail_iff {cause : ParseFault} {expected : List TokenKind} :
    Stops (fail cause expected : Reading α) tokens ahead ↔ tokens = ahead := by
  simp [Stops]

@[simp]
theorem stops_look_iff {choose : List Token → Reading α} :
    Stops (look choose) tokens ahead ↔ Stops (choose tokens) tokens ahead :=
  Iff.rfl

@[simp]
theorem stops_within_iff {rule : Rule} {reading : Reading α} :
    Stops (within rule reading) tokens ahead ↔ Stops reading tokens ahead := by
  simp only [Stops, run_within_eq_error_iff]
  constructor
  · rintro ⟨_, ⟨inside, rejected, rfl⟩, same⟩
    exact ⟨inside, rejected, same⟩
  · rintro ⟨inside, rejected, same⟩
    exact ⟨_, ⟨inside, rejected, rfl⟩, same⟩

/-- The first part fails, or the second one does with the tokens that the first has left. -/
theorem stops_bind_iff {first : Reading α} {next : α → Reading β} :
    Stops (first >>= next) tokens ahead ↔
      Stops first tokens ahead ∨
        ∃ value rest, first.run tokens = .ok (value, rest) ∧ Stops (next value) rest ahead := by
  simp only [Stops, run_bind]
  cases first.run tokens with
  | ok read =>
      obtain ⟨value, rest⟩ := read
      constructor
      · intro stops
        exact .inr ⟨value, rest, rfl, stops⟩
      · rintro (⟨_, rejected, _⟩ | ⟨_, _, same, stops⟩)
        · cases rejected
        · cases same
          exact stops
  | error failure => simp

theorem stops_bind_pure_iff {reading : Reading α} {change : α → β} :
    Stops (do return change (← reading)) tokens ahead ↔ Stops reading tokens ahead := by
  simp only [stops_bind_iff, not_stops_pure, and_false, exists_false, or_false]

theorem stops_advance_iff : Stops advance tokens ahead ↔ tokens = [] ∧ ahead = [] := by
  cases tokens with
  | nil => simp [Stops, advance, eq_comm]
  | cons token rest => simp [Stops, advance]

theorem stops_takeOneOf_iff {kinds : List TokenKind} :
    Stops (takeOneOf kinds) tokens ahead ↔ tokens = ahead ∧ nextIn kinds ahead = false := by
  cases tokens with
  | nil =>
      simp only [Stops, takeOneOf, Except.error.injEq, exists_eq_left']
      constructor
      · rintro rfl
        exact ⟨rfl, rfl⟩
      · rintro ⟨same, _⟩
        exact same
  | cons token rest =>
      simp only [Stops, takeOneOf]
      by_cases member : token.kind ∈ kinds
      · simp only [member, dif_pos, reduceCtorEq, false_and, exists_false, false_iff, not_and]
        rintro rfl
        simpa [nextIn] using member
      · simp only [member, dif_neg, not_false_eq_true, Except.error.injEq]
        constructor
        · rintro ⟨_, rfl, rfl⟩
          simpa [nextIn] using member
        · rintro ⟨rfl, _⟩
          exact ⟨_, rfl, rfl⟩

theorem stops_take_iff {kind : TokenKind} :
    Stops (take kind) tokens ahead ↔ tokens = ahead ∧ nextIs kind ahead = false := by
  have same : Stops (take kind) tokens ahead ↔ Stops (takeOneOf [kind]) tokens ahead := by
    cases tokens with
    | nil => simp [Stops, take, takeOneOf]
    | cons token rest =>
        simp only [Stops, take, takeOneOf]
        split <;> simp
  have next : nextIn [kind] ahead = nextIs kind ahead := by
    cases ahead with
    | nil => rfl
    | cons token rest => simp [nextIn, nextIs, Bool.beq_eq_decide_eq]
  rw [same, stops_takeOneOf_iff, next]

theorem stops_atEnd_iff : Stops atEnd tokens ahead ↔ tokens = ahead ∧ tokens ≠ [] := by
  cases tokens with
  | nil => simp [Stops, atEnd]
  | cons token rest => simp [Stops, atEnd]

end SearchQuery.Reading
