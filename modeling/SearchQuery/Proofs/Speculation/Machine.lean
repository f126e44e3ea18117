import SearchQuery.Grammar.Operands
import SearchQuery.Parse
set_option autoImplicit false

/-!
# Readings with a state

A reading can be carried out by a reader that has a state: a cursor, a stack of active rules, how
deep it is nested, and in how many trials it is. Here a trial does run what it tries, and puts the
state back from a snapshot afterwards. A failure copies the stack unless it arises in a trial.

What a reader does to carry out a reading is put together the way the reading is, so the readings of
the grammar and the steps of a reader are the same program. Nesting is counted up by a reader and
counted down by the grammar.
-/

namespace SearchQuery

open Grammar

structure Reader where
  ahead : List Token
  rules : List Rule
  depth : Nat
  trials : Nat
deriving DecidableEq, Repr

/-- What is put back after a trial. Of the stack only its height is kept. -/
structure Snapshot where
  ahead : List Token
  height : Nat
  depth : Nat

namespace Reader

def start (tokens : List Token) : Reader :=
  ⟨tokens, [], 0, 0⟩

def snapshot (reader : Reader) : Snapshot :=
  ⟨reader.ahead, reader.rules.length, reader.depth⟩

def restore (reader : Reader) (snapshot : Snapshot) : Reader :=
  { reader with
    ahead := snapshot.ahead
    rules := reader.rules.take snapshot.height
    depth := snapshot.depth }

/-- The reader inside another trial. -/
def speculating (reader : Reader) : Reader :=
  { reader with trials := reader.trials + 1 }

/-- The active rules, which are not copied inside a trial. -/
def blamed (reader : Reader) : List Rule :=
  if reader.trials = 0 then reader.rules else []

end Reader

/-- What a reader can do: it fails or yields a value, and is in some state either way. -/
def Action (α : Type) : Type :=
  Reader → Except Failure α × Reader

namespace Action

variable {α β : Type}

def pure (value : α) : Action α :=
  fun reader => (.ok value, reader)

def bind (first : Action α) (next : α → Action β) : Action β :=
  fun reader =>
    match first reader with
    | (.ok value, after) => next value after
    | (.error failure, after) => (.error failure, after)

def fail (cause : ParseFault) (expected : List TokenKind) : Action α :=
  fun reader => (.error ⟨cause, expected, reader.ahead, reader.blamed⟩, reader)

def within (rule : Rule) (inner : Action α) : Action α :=
  fun reader =>
    let (result, after) := inner { reader with rules := reader.rules ++ [rule] }
    (result, { after with rules := after.rules.dropLast })

def nested (inner : Action α) : Action α :=
  fun reader =>
    if maxLevels ≤ reader.depth then
      fail .nestingTooDeep [] reader
    else
      let (result, after) := inner { reader with depth := reader.depth + 1 }
      (result, { after with depth := after.depth - 1 })

def trial (inner : Action α) : Action Bool :=
  fun reader =>
    let (result, after) := inner reader.speculating
    (.ok result.isOk, { after with trials := after.trials - 1 }.restore reader.snapshot)

/-- How a reader carries out a reading. -/
def ofReading (reading : Reading α) : Action α :=
  fun reader =>
    match reading.run reader.ahead with
    | .ok (value, rest) => (.ok value, { reader with ahead := rest })
    | .error failure =>
        (.error { failure with
            rules := if reader.trials = 0 then reader.rules ++ failure.rules else [] },
          { reader with ahead := failure.ahead })

/-!
## Carrying out what readings are made of
-/

theorem ofReading_pure (value : α) : ofReading (Pure.pure value) = pure value := rfl

theorem ofReading_bind (first : Reading α) (next : α → Reading β) :
    ofReading (first >>= next) = bind (ofReading first) fun value => ofReading (next value) := by
  funext reader
  simp only [ofReading, bind, Reading.run_bind]
  cases first.run reader.ahead <;> rfl

theorem ofReading_fail (cause : ParseFault) (expected : List TokenKind) :
    ofReading (Reading.fail cause expected : Reading α) = fail cause expected := by
  funext reader
  simp only [ofReading, Reading.run_fail, List.append_nil]
  rfl

theorem ofReading_within (rule : Rule) (inner : Reading α) :
    ofReading (Reading.within rule inner) = within rule (ofReading inner) := by
  funext reader
  simp only [ofReading, within, Reading.within]
  cases inner.run reader.ahead with
  | ok read => simp only [List.dropLast_concat]
  | error failure => simp only [List.dropLast_concat, List.append_assoc, List.singleton_append]

/-- A trial puts back the cursor, the depth and the height of the stack, whatever was done. So the
stack is the same again if nothing was taken off it. -/
theorem trial_restores {inner : Action α} {reader : Reader}
    (stack : reader.rules <+: (inner reader.speculating).2.rules)
    (trials : (inner reader.speculating).2.trials = reader.speculating.trials) :
    (trial inner reader).2 = reader := by
  obtain ⟨others, stack⟩ := stack
  cases run : inner reader.speculating with
  | mk result after =>
      rw [run] at stack trials
      simp only [trial, run, Reader.restore, Reader.snapshot]
      rw [trials, ← stack, List.take_left]
      rfl

theorem trial_state (reading : Reading α) (reader : Reader) :
    (trial (ofReading reading) reader).2 = reader := by
  apply trial_restores
  case stack =>
    simp only [ofReading]
    cases reading.run reader.speculating.ahead <;> exact List.prefix_rfl
  case trials =>
    simp only [ofReading]
    cases reading.run reader.speculating.ahead <;> rfl

theorem trial_result (reading : Reading α) (reader : Reader) :
    (trial (ofReading reading) reader).1 = .ok (reading.run reader.ahead).isOk := by
  simp only [trial, ofReading, Reader.speculating]
  cases reading.run reader.ahead <;> rfl

theorem ofReading_wouldSucceed (inner : Reading α) :
    ofReading (Reading.wouldSucceed inner) = trial (ofReading inner) := by
  funext reader
  refine Prod.ext ?_ ?_
  · rw [trial_result]
    simp only [ofReading, Reading.run_wouldSucceed]
  · rw [trial_state]
    simp only [ofReading, Reading.run_wouldSucceed]

theorem nested_ofReading {reading : Reading α} {reader : Reader}
    (above : reader.depth < maxLevels) :
    nested (ofReading reading) reader = ofReading reading reader := by
  simp only [nested, if_neg (Nat.not_le.mpr above), ofReading]
  cases reading.run reader.ahead <;> rfl

/-- The levels that are left to the grammar are those that the reader has not entered. -/
theorem ofReading_operand {levels : Nat} {reader : Reader}
    (level : reader.depth + levels = maxLevels) (scope : Scope) (link : Link) :
    ofReading (operand levels scope link) reader =
      within (.operand scope) (nested <|
        bind (ofReading sign) fun sign =>
        bind (ofReading (test scope fun inner => operands inner (operand (levels - 1) inner)))
          fun body =>
        bind (ofReading boost) fun boost =>
        pure (.mk link sign body boost)) reader := by
  cases levels with
  | zero =>
      have deepest : maxLevels ≤ reader.depth := Nat.le_of_eq level.symm
      rw [operand, ofReading_within, ofReading_fail]
      simp only [within, nested, if_pos deepest]
  | succ levels =>
      have above : reader.depth < maxLevels := by omega
      simp only [Nat.add_sub_cancel, ← ofReading_pure, ← ofReading_bind]
      rw [operand, ofReading_within]
      simp only [within]
      rw [nested_ofReading]
      exact above

/-- A trial that succeeds foretells the reading that is not tried: from the same state it succeeds,
and the cursor ends where the trial had moved it. -/
theorem ofReading_of_trial {reading : Reading α} {reader : Reader}
    (accepted : (trial (ofReading reading) reader).1 = .ok true) :
    ∃ value, ofReading reading reader =
      (.ok value, { reader with ahead := (ofReading reading reader.speculating).2.ahead }) := by
  rw [trial_result] at accepted
  cases run : reading.run reader.ahead with
  | error failure =>
      rw [run] at accepted
      cases accepted
  | ok read =>
      obtain ⟨value, rest⟩ := read
      refine ⟨value, ?_⟩
      simp only [ofReading, Reader.speculating, run]

/-- Reading a token list is what a reader does from the start. -/
theorem readTokens_eq (mode : Mode) (tokens : List Token) :
    readTokens mode tokens = (ofReading (readQuery mode.dialect) (Reader.start tokens)).1 := by
  simp only [readTokens, readTokensAs, ofReading, Reader.start, if_true, List.nil_append]
  cases (readQuery mode.dialect).run tokens <;> rfl

end Action

end SearchQuery
