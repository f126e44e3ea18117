import SearchQuery.Reading
set_option autoImplicit false

/-!
# What a successful reading has done

Each way of putting readings together has an equivalence that says when it succeeds. Rewriting with
them takes a successful reading apart into the readings it is made of, down to the tokens taken.
-/

namespace SearchQuery

structure Leaf.IsOf {kinds : List TokenKind} (leaf : Leaf kinds) (token : Token) : Prop where
  kind : leaf.kind = token.kind
  text : leaf.text = token.text

theorem Leaf.IsOf.kind_mem {kinds : List TokenKind} {leaf : Leaf kinds} {token : Token}
    (same : leaf.IsOf token) : token.kind ∈ kinds :=
  same.kind ▸ leaf.kind_mem

theorem Leaf.IsOf.kind_eq {kind : TokenKind} {leaf : Leaf [kind]} {token : Token}
    (same : leaf.IsOf token) : token.kind = kind :=
  List.mem_singleton.mp same.kind_mem

theorem Leaf.IsOf.unique {kinds : List TokenKind} {first second : Leaf kinds} {token : Token}
    (left : first.IsOf token) (right : second.IsOf token) : first = second := by
  obtain ⟨kind, text, member⟩ := first
  obtain ⟨otherKind, otherText, otherMember⟩ := second
  obtain ⟨rfl, rfl⟩ := left
  obtain ⟨rfl, rfl⟩ := right
  rfl

namespace Reading

variable {α β : Type}

theorem run_pure_eq_ok_iff {value result : α} {tokens rest : List Token} :
    (Pure.pure value : Reading α).run tokens = .ok (result, rest) ↔
      value = result ∧ tokens = rest := by
  simp only [run_pure, Except.ok.injEq, Prod.mk.injEq]

theorem run_bind_eq_ok_iff {first : Reading α} {next : α → Reading β}
    {tokens rest : List Token} {result : β} :
    (first >>= next).run tokens = .ok (result, rest) ↔
      ∃ value between, first.run tokens = .ok (value, between) ∧
        (next value).run between = .ok (result, rest) := by
  rw [run_bind]
  cases first.run tokens with
  | ok read =>
      obtain ⟨value, between⟩ := read
      constructor
      · intro accepted
        exact ⟨value, between, rfl, accepted⟩
      · rintro ⟨_, _, same, accepted⟩
        cases same
        exact accepted
  | error failure => simp

/-- A failure is part of every rule that was active. -/
theorem run_within_eq_error_iff {rule : Rule} {inner : Reading α} {tokens : List Token}
    {failure : Failure} :
    (within rule inner).run tokens = .error failure ↔
      ∃ inside, inner.run tokens = .error inside ∧
        { inside with rules := rule :: inside.rules } = failure := by
  simp only [within]
  cases inner.run tokens <;> simp

theorem run_fail_ne_ok {cause : ParseFault} {expected : List TokenKind} {tokens rest : List Token}
    {result : α} : (fail cause expected : Reading α).run tokens ≠ .ok (result, rest) := by
  simp

/-- A successful trial has taken nothing. -/
theorem run_wouldSucceed_eq_ok_iff {inner : Reading α} {tokens rest : List Token} {result : Bool} :
    (wouldSucceed inner).run tokens = .ok (result, rest) ↔
      (inner.run tokens).isOk = result ∧ tokens = rest := by
  rw [run_wouldSucceed, Except.ok.injEq, Prod.mk.injEq]

theorem run_advance_eq_ok_iff {tokens rest : List Token} {result : Unit} :
    advance.run tokens = .ok (result, rest) ↔ ∃ token, tokens = token :: rest := by
  cases tokens with
  | nil => simp [advance]
  | cons token tokens => simp [advance, eq_comm]

theorem run_takeOneOf_eq_ok_iff {kinds : List TokenKind} {leaf : Leaf kinds}
    {tokens rest : List Token} :
    (takeOneOf kinds).run tokens = .ok (leaf, rest) ↔
      ∃ token, leaf.IsOf token ∧ tokens = token :: rest := by
  cases tokens with
  | nil => simp [takeOneOf]
  | cons token tokens =>
      simp only [takeOneOf]
      split
      · next member =>
          constructor
          · intro accepted
            cases accepted
            exact ⟨token, ⟨rfl, rfl⟩, rfl⟩
          · rintro ⟨_, same, split⟩
            cases split
            obtain ⟨kind, text, _⟩ := leaf
            obtain ⟨rfl, rfl⟩ := same
            rfl
      · next missing =>
          constructor
          · intro accepted
            cases accepted
          · rintro ⟨_, same, split⟩
            cases split
            exact absurd same.kind_mem missing

theorem run_take_eq_ok_iff {kind : TokenKind} {leaf : Leaf [kind]} {tokens rest : List Token} :
    (take kind).run tokens = .ok (leaf, rest) ↔
      ∃ token, leaf.IsOf token ∧ tokens = token :: rest := by
  rw [← run_takeOneOf_eq_ok_iff]
  cases tokens with
  | nil => simp [take, takeOneOf]
  | cons token tokens =>
      simp only [take, takeOneOf]
      split <;> simp

theorem run_atEnd_eq_ok_iff {tokens rest : List Token} {result : Unit} :
    atEnd.run tokens = .ok (result, rest) ↔ tokens = [] ∧ rest = [] := by
  cases tokens with
  | nil => simp [atEnd, eq_comm]
  | cons token tokens => simp [atEnd]

/-- What a reading accepts is written with the tokens that it has taken. -/
def Writes (reading : Reading α) (written : α → List Token → Prop) : Prop :=
  ∀ ⦃tokens rest : List Token⦄ ⦃value : α⦄, reading.run tokens = .ok (value, rest) →
    ∃ taken, tokens = taken ++ rest ∧ written value taken

theorem Writes.mono {reading : Reading α} {written other : α → List Token → Prop}
    (writes : reading.Writes written)
    (weaker : ∀ value taken, written value taken → other value taken) : reading.Writes other := by
  intro tokens rest value accepted
  obtain ⟨taken, split, valueWritten⟩ := writes accepted
  exact ⟨taken, split, weaker value taken valueWritten⟩

theorem takeOneOf_written {kinds : List TokenKind} :
    (takeOneOf kinds).Writes fun leaf taken => ∃ token, leaf.IsOf token ∧ taken = [token] := by
  intro tokens rest leaf accepted
  obtain ⟨token, same, rfl⟩ := run_takeOneOf_eq_ok_iff.mp accepted
  exact ⟨[token], rfl, token, same, rfl⟩

theorem take_written {kind : TokenKind} :
    (take kind).Writes fun leaf taken => ∃ token, leaf.IsOf token ∧ taken = [token] := by
  intro tokens rest leaf accepted
  obtain ⟨token, same, rfl⟩ := run_take_eq_ok_iff.mp accepted
  exact ⟨[token], rfl, token, same, rfl⟩

end Reading

end SearchQuery
