import SearchQuery.Proofs.Reading.Laws
set_option autoImplicit false

/-!
# Loops of readings

A loop reads in rounds for as long as it likes. What it does is said by a relation that nothing
limits. If every round takes a token, the relation has exactly one outcome for each token list,
after no more rounds than there are tokens, and the loop that is limited to so many rounds has the
same outcome.

A failure ends more than a loop. Whatever has begun a reading that fails, fails too.
-/

namespace SearchQuery

/-- A loop: what is read in a round that begins here, unless the loop ends here, and whether it goes
on behind a round. -/
structure Loop (α : Type) where
  round? : List Token → Option (Reading α)
  again : List Token → Bool

open Reading

variable {α β : Type}

/-!
## What a failure ends
-/

namespace Reading

/-- A reading takes at least one token from the front of the list whenever it succeeds. -/
def Takes (reading : Reading α) : Prop :=
  ∀ ⦃tokens rest : List Token⦄ ⦃value : α⦄, reading.run tokens = .ok (value, rest) →
    ∃ taken, taken ≠ [] ∧ tokens = taken ++ rest

theorem Takes.advances {reading : Reading α} (takes : reading.Takes) : reading.Advances := by
  intro tokens rest value accepted
  obtain ⟨taken, filled, rfl⟩ := takes accepted
  have positive := List.length_pos_iff.mpr filled
  rw [List.length_append]
  omega

theorem Takes.behind_advance {reading : Reading α} (takes : reading.Takes) :
    Reading.Takes (do advance; reading) := by
  intro tokens rest value accepted
  obtain ⟨_, _, advanced, accepted⟩ := run_bind_eq_ok_iff.mp accepted
  obtain ⟨token, rfl⟩ := run_advance_eq_ok_iff.mp advanced
  obtain ⟨taken, _, rfl⟩ := takes accepted
  exact ⟨token :: taken, List.cons_ne_nil _ _, rfl⟩

/-- Carrying out a reading comes to the point where another one is begun. What is only tried is not
meant. -/
inductive Begins : {α β : Type} → Reading α → List Token → Reading β → List Token → Prop where
  | here {α : Type} {reading : Reading α} {tokens : List Token} :
      Begins reading tokens reading tokens
  | within {α β : Type} {rule : Rule} {inner : Reading α} {begun : Reading β}
      {tokens place : List Token} :
      Begins inner tokens begun place → Begins (within rule inner) tokens begun place
  | look {α β : Type} {choose : List Token → Reading α} {begun : Reading β}
      {tokens place : List Token} :
      Begins (choose tokens) tokens begun place → Begins (look choose) tokens begun place
  | first {α β γ : Type} {first : Reading α} {next : α → Reading γ} {begun : Reading β}
      {tokens place : List Token} :
      Begins first tokens begun place → Begins (first >>= next) tokens begun place
  | behind {α β γ : Type} {first : Reading α} {next : α → Reading γ} {begun : Reading β} {value : α}
      {tokens rest place : List Token} :
      first.run tokens = .ok (value, rest) → Begins (next value) rest begun place →
      Begins (first >>= next) tokens begun place

/-- A reading that has begun one that fails, fails with it, inside more rules. -/
theorem Begins.run_eq_error {reading : Reading α} {begun : Reading β} {tokens place : List Token}
    (begins : reading.Begins tokens begun place) {failure : Failure}
    (failed : begun.run place = .error failure) :
    ∃ rules, reading.run tokens = .error { failure with rules := rules ++ failure.rules } := by
  induction begins with
  | here => exact ⟨[], failed⟩
  | @within _ _ rule _ _ _ _ _ ih =>
      obtain ⟨rules, failed⟩ := ih failed
      exact ⟨rule :: rules, run_within_eq_error_iff.mpr ⟨_, failed, rfl⟩⟩
  | look _ ih => exact ih failed
  | first _ ih =>
      obtain ⟨rules, failed⟩ := ih failed
      exact ⟨rules, by rw [run_bind, failed]⟩
  | behind accepted _ ih =>
      obtain ⟨rules, failed⟩ := ih failed
      exact ⟨rules, by rw [run_bind, accepted]; exact failed⟩

end Reading

namespace Loop

/-- What a loop does, with the number of rounds that it completes. A round that fails is the last
one, and its failure is that of the loop. -/
inductive Runs (loop : Loop α) :
    List Token → Nat → Except Failure (List α × List Token) → Prop where
  | ended {tokens : List Token} :
      loop.round? tokens = none → Runs loop tokens 0 (.ok ([], tokens))
  | failed {tokens : List Token} {round : Reading α} {failure : Failure} :
      loop.round? tokens = some round → round.run tokens = .error failure →
      Runs loop tokens 0 (.error failure)
  | last {tokens rest : List Token} {round : Reading α} {value : α} :
      loop.round? tokens = some round → round.run tokens = .ok (value, rest) →
      loop.again rest = false → Runs loop tokens 1 (.ok ([value], rest))
  | next {tokens rest : List Token} {round : Reading α} {value : α} {rounds : Nat}
      {outcome : Except Failure (List α × List Token)} :
      loop.round? tokens = some round → round.run tokens = .ok (value, rest) →
      loop.again rest = true → Runs loop rest rounds outcome →
      Runs loop tokens (rounds + 1) (outcome.map fun later => (value :: later.1, later.2))

/-- The loop as a reading. At most as many rounds as given are read. -/
def upTo (loop : Loop α) : Nat → Reading (List α)
  | 0 => return []
  | limit + 1 =>
      look fun tokens =>
        match loop.round? tokens with
        | none => return []
        | some round => do
            let value ← round
            look fun behind =>
              if loop.again behind then do
                let values ← loop.upTo limit
                return value :: values
              else
                return [value]

/-- Every round takes a token, and no round but the first is begun at the end. -/
structure Steady (loop : Loop α) : Prop where
  takes : ∀ {tokens : List Token} {round : Reading α}, loop.round? tokens = some round → round.Takes
  ended : loop.again [] = true → loop.round? [] = none

variable {loop : Loop α} {tokens rest : List Token} {rounds : Nat}
  {outcome : Except Failure (List α × List Token)}

theorem Runs.unique (runs : loop.Runs tokens rounds outcome) {count : Nat}
    {result : Except Failure (List α × List Token)} (others : loop.Runs tokens count result) :
    count = rounds ∧ result = outcome := by
  induction runs generalizing count result with
  | ended none => cases others <;> simp_all
  | failed some failed => cases others <;> simp_all
  | last some accepted ends => cases others <;> simp_all
  | next some accepted goesOn _ ih =>
      cases others with
      | next some' accepted' goesOn' later =>
          obtain rfl := Option.some.inj (some.symm.trans some')
          cases accepted.symm.trans accepted'
          obtain ⟨rfl, rfl⟩ := ih later
          exact ⟨rfl, rfl⟩
      | _ => simp_all

theorem Steady.run_suffix (steady : loop.Steady) {values : List α}
    (runs : loop.Runs tokens rounds (.ok (values, rest))) : ∃ taken, tokens = taken ++ rest := by
  generalize result : Except.ok (values, rest) = outcome at runs
  induction runs generalizing values with
  | ended _ =>
      cases result
      exact ⟨[], rfl⟩
  | failed _ _ => cases result
  | last some accepted _ =>
      cases result
      obtain ⟨taken, _, rfl⟩ := steady.takes some accepted
      exact ⟨taken, rfl⟩
  | @next _ _ _ _ _ outcome some accepted _ _ ih =>
      obtain ⟨taken, _, rfl⟩ := steady.takes some accepted
      cases outcome with
      | error failure => cases result
      | ok later =>
          cases result
          obtain ⟨others, rfl⟩ := ih rfl
          exact ⟨taken ++ others, (List.append_assoc ..).symm⟩

theorem Steady.rounds_le (steady : loop.Steady) (runs : loop.Runs tokens rounds outcome) :
    rounds ≤ tokens.length := by
  induction runs with
  | ended _ | failed _ _ => exact Nat.zero_le _
  | last some accepted _ =>
      exact Nat.lt_of_le_of_lt (Nat.zero_le _) ((steady.takes some).advances accepted)
  | next some accepted _ _ ih =>
      exact Nat.lt_of_le_of_lt ih ((steady.takes some).advances accepted)

/-- Where a round fails there was a token left for it, unless it is the first one. -/
theorem Steady.rounds_lt (steady : loop.Steady) {failure : Failure}
    (runs : loop.Runs tokens rounds (.error failure)) (filled : tokens ≠ []) :
    rounds < tokens.length := by
  generalize result : Except.error failure = outcome at runs
  induction runs with
  | ended _ | last _ _ _ => cases result
  | failed _ _ => exact List.length_pos_iff.mpr filled
  | @next tokens rest _ _ _ outcome some accepted goesOn later ih =>
      cases outcome with
      | ok later => cases result
      | error failure =>
          cases result
          have shorter := (steady.takes some).advances accepted
          have more : rest ≠ [] := by
            rintro rfl
            obtain ⟨_, ended⟩ := later.unique (.ended (steady.ended goesOn))
            cases ended
          exact Nat.lt_of_le_of_lt (ih more rfl) shorter

/-- With more rounds than there are tokens, a limit is never reached. -/
theorem Steady.exists_runs (steady : loop.Steady) {limit : Nat} (enough : tokens.length < limit) :
    ∃ rounds, loop.Runs tokens rounds ((loop.upTo limit).run tokens) := by
  induction limit generalizing tokens with
  | zero => cases enough
  | succ limit ih =>
      rw [upTo, run_look]
      cases next : loop.round? tokens with
      | none => exact ⟨0, .ended next⟩
      | some round =>
          rw [run_bind]
          cases run : round.run tokens with
          | error failure => exact ⟨0, .failed next run⟩
          | ok read =>
              obtain ⟨value, rest⟩ := read
              have shorter := (steady.takes next).advances run
              dsimp only
              rw [run_look]
              cases goesOn : loop.again rest with
              | false => exact ⟨1, .last next run goesOn⟩
              | true =>
                  obtain ⟨rounds, later⟩ := @ih rest (by omega)
                  have whole := Runs.next next run goesOn later
                  refine ⟨rounds + 1, ?_⟩
                  rw [if_pos rfl, run_bind]
                  cases read : (loop.upTo limit).run rest <;> rw [read] at whole <;> exact whole

/-- The loop that nothing limits has this outcome and no other, after no more rounds than there are
tokens. A round that fails is within this number too, unless there are no tokens at all. -/
def Halts (loop : Loop α) (tokens : List Token)
    (outcome : Except Failure (List α × List Token)) : Prop :=
  ∃ rounds ≤ tokens.length,
    (∀ failure, outcome = .error failure → tokens ≠ [] → rounds < tokens.length) ∧
    ∀ count result, loop.Runs tokens count result ↔ count = rounds ∧ result = outcome

theorem Steady.halts (steady : loop.Steady) {limit : Nat} (enough : tokens.length < limit) :
    loop.Halts tokens ((loop.upTo limit).run tokens) := by
  obtain ⟨rounds, runs⟩ := steady.exists_runs enough
  refine ⟨rounds, steady.rounds_le runs, ?_, ?_⟩
  · intro failure failed filled
    rw [failed] at runs
    exact steady.rounds_lt runs filled
  · intro count result
    refine ⟨runs.unique, ?_⟩
    rintro ⟨rfl, rfl⟩
    exact runs

end Loop

end SearchQuery
