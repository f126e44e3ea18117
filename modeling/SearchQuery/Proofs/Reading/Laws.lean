import SearchQuery.Proofs.Reading
set_option autoImplicit false

/-!
# Laws of readings

Readings are a lawful monad, failures and trials included, and being part of a rule goes through a
sequence of readings. A reading *yields* what another one does if it takes the same tokens, fails
with the same failures, and changes the value.
-/

namespace SearchQuery.Reading

variable {α β γ δ : Type}

theorem eq_of_runs_eq {first second : Reading α}
    (run : ∀ tokens, first.run tokens = second.run tokens)
    (trials : ∀ tokens, first.trials tokens = second.trials tokens) : first = second := by
  obtain ⟨firstRun, firstTrials⟩ := first
  obtain ⟨secondRun, secondTrials⟩ := second
  obtain rfl : firstRun = secondRun := funext run
  obtain rfl : firstTrials = secondTrials := funext trials
  rfl

theorem trials_bind (first : Reading α) (next : α → Reading β) (tokens : List Token) :
    (first >>= next).trials tokens =
      first.trials tokens ++
        match first.run tokens with
        | .ok (value, rest) => (next value).trials rest
        | .error _ => [] := rfl

instance : LawfulMonad Reading := by
  refine LawfulMonad.mk' Reading ?mapping ?starting ?associating
  case mapping =>
    intro α reading
    refine eq_of_runs_eq (fun tokens => ?_) fun tokens => ?_
    · change (reading >>= fun value => Pure.pure value).run tokens = _
      rw [run_bind]
      cases reading.run tokens <;> rfl
    · change (reading >>= fun value => Pure.pure value).trials tokens = _
      rw [trials_bind]
      cases reading.run tokens <;> exact List.append_nil _
  case starting =>
    intro α β value next
    rfl
  case associating =>
    intro α β γ first second third
    refine eq_of_runs_eq (fun tokens => ?_) fun tokens => ?_
    · simp only [run_bind]
      cases first.run tokens <;> rfl
    · simp only [trials_bind, run_bind]
      cases first.run tokens with
      | error failure => simp
      | ok read => simp

theorem run_bind_congr {first second : Reading α} {tokens : List Token}
    (same : first.run tokens = second.run tokens) (next : α → Reading β) :
    (first >>= next).run tokens = (second >>= next).run tokens := by
  rw [run_bind, run_bind, same]

theorem run_within_congr {first second : Reading α} {tokens : List Token}
    (same : first.run tokens = second.run tokens) (rule : Rule) :
    (within rule first).run tokens = (within rule second).run tokens := by
  simp only [within, same]

/-- A part of a rule is the parts of it one after another. -/
theorem within_bind (rule : Rule) (first : Reading α) (next : α → Reading β) :
    within rule (first >>= next) = within rule first >>= fun value => within rule (next value) := by
  refine eq_of_runs_eq (fun tokens => ?_) fun tokens => ?_
  · simp only [within, run_bind]
    cases first.run tokens <;> rfl
  · simp only [within, trials_bind]
    cases first.run tokens <;> rfl

@[simp] theorem within_pure (rule : Rule) (value : α) :
    within rule (Pure.pure value) = Pure.pure value := rfl

/-!
## Readings compared
-/

/-- One reading does what another one does, with its value changed. -/
def Yields (image : Reading β) (change : α → β) (source : Reading α) : Prop :=
  ∀ tokens, image.run tokens = (source.run tokens).map fun read => (change read.1, read.2)

/-- A reading takes at least one token whenever it succeeds. -/
def Advances (reading : Reading α) : Prop :=
  ∀ ⦃tokens rest : List Token⦄ ⦃value : α⦄,
    reading.run tokens = .ok (value, rest) → rest.length < tokens.length

theorem Advances.behind_advance {reading : Reading α} (advances : reading.Advances) :
    Reading.Advances (do advance; reading) := by
  intro tokens rest value accepted
  obtain ⟨_, _, advanced, accepted⟩ := run_bind_eq_ok_iff.mp accepted
  obtain ⟨token, rfl⟩ := run_advance_eq_ok_iff.mp advanced
  exact Nat.lt_succ_of_lt (advances accepted)

namespace Yields

theorem pure (change : α → β) (value : α) :
    Yields (Pure.pure (change value)) change (Pure.pure value) :=
  fun _ => rfl

theorem fail (change : α → β) (cause : ParseFault) (expected : List TokenKind) :
    Yields (Reading.fail cause expected) change (Reading.fail cause expected) :=
  fun _ => rfl

theorem refl (reading : Reading α) : Yields reading id reading := by
  intro tokens
  cases reading.run tokens <;> rfl

theorem look {change : α → β} {image : List Token → Reading β} {source : List Token → Reading α}
    (each : ∀ tokens, Yields (image tokens) change (source tokens)) :
    Yields (Reading.look image) change (Reading.look source) :=
  fun tokens => each tokens tokens

theorem within {change : α → β} {image : Reading β} {source : Reading α} (rule : Rule)
    (inner : Yields image change source) :
    Yields (Reading.within rule image) change (Reading.within rule source) := by
  intro tokens
  simp only [Reading.within, inner tokens]
  cases source.run tokens <;> rfl

theorem bind {first : α → β} {change : γ → δ} {image : Reading β} {source : Reading α}
    {imageNext : β → Reading δ} {sourceNext : α → Reading γ} (yields : Yields image first source)
    (next : ∀ value, Yields (imageNext (first value)) change (sourceNext value)) :
    Yields (image >>= imageNext) change (source >>= sourceNext) := by
  intro tokens
  rw [run_bind, run_bind, yields tokens]
  cases source.run tokens with
  | error failure => rfl
  | ok read => exact next read.1 read.2

theorem after {change : γ → δ} (first : Reading α) {image : α → Reading δ} {source : α → Reading γ}
    (next : ∀ value, Yields (image value) change (source value)) :
    Yields (first >>= image) change (first >>= source) :=
  bind (refl first) next

/-- What the source builds from its value may be part of the change. -/
theorem wrap {build : α → γ} {change : γ → β} {image : Reading β} {source : Reading α}
    (yields : Yields image (fun value => change (build value)) source) :
    Yields image change (do return build (← source)) := by
  intro tokens
  rw [yields tokens, run_bind]
  cases source.run tokens <;> rfl

theorem exists_of_run_eq_ok {change : α → β} {image : Reading β} {source : Reading α}
    (yields : Yields image change source) {tokens rest : List Token} {value : β}
    (accepted : image.run tokens = .ok (value, rest)) :
    ∃ read, source.run tokens = .ok (read, rest) := by
  rw [yields tokens] at accepted
  cases run : source.run tokens with
  | error failure =>
      rw [run] at accepted
      cases accepted
  | ok read =>
      rw [run] at accepted
      cases accepted
      exact ⟨read.1, rfl⟩

theorem advances {change : α → β} {image : Reading β} {source : Reading α}
    (yields : Yields image change source) (advances : Advances source) : Advances image := by
  intro tokens rest value accepted
  obtain ⟨_, accepted⟩ := yields.exists_of_run_eq_ok accepted
  exact advances accepted

end Yields

end SearchQuery.Reading
