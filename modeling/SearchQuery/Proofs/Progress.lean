import SearchQuery.Proofs.Connective.Agreement
import SearchQuery.Proofs.Progress.Starts
import SearchQuery.Proofs.Reading.Rounds
import SearchQuery.Proofs.Speculation.Machine
set_option autoImplicit false

/-!
# Operands and lookahead

The loops over operands look at the next token to see whether an operand begins. The kinds that they
look for are exactly those with which an operand can begin: one that is read begins with such a kind
and takes a token, and with every such kind some operand begins, wherever one more level is left for
parentheses. So each round of a loop takes a token, and a loop ends after no more rounds than there
are tokens. The fields of a template and the steps of a proximity are read in such loops too.
-/

namespace SearchQuery

open Reading Grammar

variable {α β : Type}

/-!
## Readings that progress
-/

namespace Reading

/-- What is read begins with one of several kinds and takes at least one token. -/
def Progresses (starts : List TokenKind) (reading : Reading α) : Prop :=
  ∀ ⦃tokens rest : List Token⦄ ⦃value : α⦄, reading.run tokens = .ok (value, rest) →
    nextIn starts tokens = true ∧ ∃ taken, taken ≠ [] ∧ tokens = taken ++ rest

theorem Progresses.takes {starts : List TokenKind} {reading : Reading α}
    (progresses : reading.Progresses starts) : reading.Takes :=
  fun _ _ _ accepted => (progresses accepted).2

theorem Yields.progresses {starts : List TokenKind} {change : α → β} {image : Reading β}
    {source : Reading α} (yields : image.Yields change source)
    (progresses : source.Progresses starts) : image.Progresses starts := by
  intro tokens rest value accepted
  obtain ⟨read, accepted⟩ := yields.exists_of_run_eq_ok accepted
  exact progresses accepted

end Reading

/-!
## Loops that go on while something is ahead
-/

/-- Rounds for as long as one is ahead. -/
def Loop.whileAhead (ahead? : List Token → Option (Reading α)) : Loop α :=
  ⟨ahead?, fun _ => true⟩

namespace Layered

variable {ahead? : List Token → Option (Reading α)}

theorem many_eq_upTo (limit : Nat) :
    many ahead? limit = (Loop.whileAhead ahead?).upTo limit := by
  induction limit with
  | zero => rfl
  | succ limit ih =>
      rw [many, Loop.upTo, ih]
      rfl

theorem steady_of_whileAhead (steady : (Loop.whileAhead ahead?).Steady) : Steady ahead? where
  ended := steady.ended rfl
  advances := fun next => (steady.takes next).advances

theorem halts_many (steady : (Loop.whileAhead ahead?).Steady) (tokens : List Token) :
    (Loop.whileAhead ahead?).Halts tokens ((many ahead? tokens.length).run tokens) := by
  rw [(steady_of_whileAhead steady).run_many_eq (Nat.le_refl _) (Nat.le_succ _), many_eq_upTo]
  exact steady.halts (Nat.lt_succ_self _)

variable {scope : Scope} {conjoins : Bool} {operand : Reading Node}

theorem steady_conjuncts (takes : operand.Takes) :
    (Loop.whileAhead (conjunctAhead? conjoins scope operand)).Steady where
  takes := by
    intro tokens round next
    change conjunctAhead? conjoins scope operand tokens = some round at next
    unfold conjunctAhead? at next
    split at next
    · cases next
      exact takes.behind_advance
    · split at next
      · cases next
        exact takes
      · cases next
  ended _ := (steady_conjunctAhead? conjoins scope takes.advances).ended

theorem conjunction_progresses (takes : operand.Takes) :
    (conjunction conjoins scope operand).Progresses (operandStarts scope) := by
  intro tokens rest node accepted
  simp only [conjunction, manyHere, run_within_eq_ok_iff, run_bind_eq_ok_iff, run_look,
    run_pure_eq_ok_iff] at accepted
  obtain ⟨_, _, required, _, behind, first, _, _, later, _, rfl⟩ := accepted
  obtain ⟨rfl, starts⟩ := run_requireOperand_eq_ok_iff.mp required
  obtain ⟨taken, filled, rfl⟩ := takes first
  have steady : (Loop.whileAhead (conjunctAhead? conjoins scope operand)).Steady :=
    steady_conjuncts takes
  obtain ⟨_, _, _, runs⟩ := halts_many steady behind
  rw [later] at runs
  obtain ⟨others, rfl⟩ := steady.run_suffix ((runs _ _).mpr ⟨rfl, rfl⟩)
  exact ⟨starts, taken ++ others, by simp [filled], (List.append_assoc ..).symm⟩

theorem steady_alternatives (takes : operand.Takes) :
    (Loop.whileAhead (alternativeAhead? conjoins scope operand)).Steady where
  takes := by
    have conjunctionTakes : (conjunction conjoins scope operand).Takes :=
      (conjunction_progresses takes).takes
    intro tokens round next
    change alternativeAhead? conjoins scope operand tokens = some round at next
    unfold alternativeAhead? at next
    split at next
    · cases next
      exact conjunctionTakes.behind_advance
    · split at next
      · cases next
        exact conjunctionTakes
      · cases next
  ended _ := (steady_alternativeAhead? conjoins scope takes.advances).ended

theorem steady_laterOperands {operand : Link → Reading Operand}
    (takes : ∀ link, (operand link).Takes) :
    (Loop.whileAhead (laterAhead? scope operand)).Steady where
  takes := by
    intro tokens round next
    obtain ⟨link, _, rfl⟩ := Option.map_eq_some_iff.mp next
    intro tokens rest read accepted
    simp only [linked, run_bind_eq_ok_iff, run_within_eq_ok_iff] at accepted
    obtain ⟨_, between, linkTaken, accepted⟩ := accepted
    obtain ⟨taken, filled, rfl⟩ := takes link (conjunct_accepted accepted)
    cases link with
    | opening | adjacent =>
        obtain ⟨_, rfl⟩ := run_pure_eq_ok_iff.mp linkTaken
        exact ⟨taken, filled, rfl⟩
    | and | or =>
        obtain ⟨operator, rfl⟩ := run_advance_eq_ok_iff.mp linkTaken
        exact ⟨operator :: taken, List.cons_ne_nil _ _, rfl⟩
  ended _ := rfl

end Layered

/-!
## Loops that look behind each round
-/

theorem FieldReference.Written.tokens_ne_nil {field : FieldReference} {tokens : List Token}
    (written : field.Written tokens) : tokens ≠ [] := by
  cases written with
  | bare bare => cases bare <;> simp
  | marked _ _ => simp

namespace Grammar

def templateField : Reading FieldReference := do
  let field ← anyFieldReference
  skip .comma
  return field

/-- The fields of a template, up to the closing parenthesis or the end. -/
def templateLoop : Loop FieldReference where
  round? _ := some templateField
  again tokens := !(tokens.isEmpty || nextIs .rparen tokens)

theorem templateFields_eq_upTo (limit : Nat) : templateFields limit = templateLoop.upTo limit := by
  induction limit with
  | zero => rfl
  | succ limit ih =>
      have body : templateLoop.upTo (limit + 1) = (do
          let field ← templateField
          look fun tokens =>
            if templateLoop.again tokens then do
              let fields ← templateLoop.upTo limit
              return field :: fields
            else
              return [field]) := rfl
      rw [body, ← ih, templateFields, templateField]
      simp only [bind_assoc, pure_bind]
      refine bind_congr fun field => bind_congr fun _ => congrArg look (funext fun tokens => ?_)
      have again : templateLoop.again tokens = !(tokens.isEmpty || nextIs .rparen tokens) := rfl
      rw [again]
      cases tokens.isEmpty || nextIs .rparen tokens <;> rfl

theorem templateLoop_steady : templateLoop.Steady where
  takes := by
    intro tokens round next
    cases next
    intro tokens rest field accepted
    simp only [templateField, run_bind_eq_ok_iff, run_pure_eq_ok_iff] at accepted
    obtain ⟨field, _, named, _, _, skipped, rfl, rfl⟩ := accepted
    obtain ⟨taken, rfl, written⟩ := anyFieldReference_written named
    rcases skip_accepted skipped with rfl | ⟨comma, _, rfl⟩
    · exact ⟨taken, written.tokens_ne_nil, rfl⟩
    · exact ⟨taken ++ [comma], by simp, by simp⟩
  ended := nofun

def proximityStep : Reading (Option WholeNumber × PlainWord) := do
  let _ ← take .star
  let distance ← distance
  let word ← takeOneOf TokenKind.words
  return (distance, word)

/-- The steps of a proximity, as long as stars follow. -/
def proximityLoop : Loop (Option WholeNumber × PlainWord) where
  round? _ := some proximityStep
  again := nextIs .star

theorem proximitySteps_eq_upTo (limit : Nat) :
    proximitySteps limit = proximityLoop.upTo limit := by
  induction limit with
  | zero => rfl
  | succ limit ih =>
      have body : proximityLoop.upTo (limit + 1) = (do
          let step ← proximityStep
          look fun tokens =>
            if nextIs .star tokens then do
              let steps ← proximityLoop.upTo limit
              return step :: steps
            else
              return [step]) := rfl
      rw [body, ← ih, proximitySteps, proximityStep]
      simp only [bind_assoc, pure_bind]

theorem proximityLoop_steady : proximityLoop.Steady where
  takes := by
    intro tokens round next
    cases next
    intro tokens rest step accepted
    simp only [proximityStep, run_bind_eq_ok_iff, run_take_eq_ok_iff, run_takeOneOf_eq_ok_iff,
      run_pure_eq_ok_iff] at accepted
    obtain ⟨_, _, ⟨star, _, rfl⟩, _, _, measured, _, _, ⟨token, _, rfl⟩, _, rfl⟩ := accepted
    obtain ⟨between, rfl, _⟩ := distance_written measured
    exact ⟨star :: between ++ [token], by simp, by simp⟩
  ended := nofun

/-!
## Operands
-/

variable {levels : Nat} {scope : Scope}

theorem operand_progresses (link : Link) :
    (operand levels scope link).Progresses (operandStarts scope) := by
  intro tokens rest read accepted
  obtain ⟨taken, rfl, _, written⟩ := operand_written link accepted
  exact ⟨written.nextIn_operandStarts rest, taken, written.tokens_ne_nil, rfl⟩

theorem operands_progresses :
    (operands scope (operand levels scope)).Progresses (operandStarts scope) := by
  intro tokens rest read accepted
  obtain ⟨taken, rfl, written⟩ := operands_written operand_written accepted
  cases written with
  | @operands _ _ _ first others _ firstWritten _ =>
      have starts := firstWritten.nextIn_operandStarts (others ++ rest)
      rw [← List.append_assoc] at starts
      exact ⟨starts, first ++ others, by simp [firstWritten.tokens_ne_nil], rfl⟩

end Grammar

variable {settings : Settings}

theorem Layered.operand_progresses (full : settings.mode.dialect = .full) (levels : Nat)
    (scope : Scope) : (Layered.operand settings levels scope).Progresses (operandStarts scope) :=
  ((Layered.operand_mirrors full levels scope).yields .opening).progresses
    (Grammar.operand_progresses .opening)

/-- The readings of operands with so many levels left: of one, and of one and all that a loop reads
behind it. In the layered grammar a conjunction is read by itself. -/
inductive ReadsOperands (settings : Settings) (scope : Scope) (levels : Nat) :
    {α : Type} → Reading α → Prop where
  | operand (link : Link) : ReadsOperands settings scope levels (Grammar.operand levels scope link)
  | operands :
      ReadsOperands settings scope levels (Grammar.operands scope (Grammar.operand levels scope))
  | node : ReadsOperands settings scope levels (Layered.operand settings levels scope)
  | conjunction : ReadsOperands settings scope levels
      (Layered.conjunction (settings.conjoins scope) scope (Layered.operand settings levels scope))
  | disjunction : ReadsOperands settings scope levels
      (Layered.disjunction (settings.conjoins scope) scope (Layered.operand settings levels scope))

theorem ReadsOperands.progresses (full : settings.mode.dialect = .full) {scope : Scope}
    {levels : Nat} {reading : Reading α} (reads : ReadsOperands settings scope levels reading) :
    reading.Progresses (operandStarts scope) := by
  have node := Layered.operand_progresses full levels scope
  cases reads with
  | operand link => exact Grammar.operand_progresses link
  | operands => exact Grammar.operands_progresses
  | node => exact node
  | conjunction => exact Layered.conjunction_progresses node.takes
  | disjunction =>
      have mirrors := Layered.operand_mirrors full levels scope
      have same := Arrangement.ofSettings_of_full full scope
      exact (mirrors.disjunction same).progresses Grammar.operands_progresses

theorem Reading.Progresses.reader {starts : List TokenKind} {reading : Reading α}
    (progresses : reading.Progresses starts) {reader after : Reader} {value : α}
    (done : Action.ofReading reading reader = (.ok value, after)) :
    nextIn starts reader.ahead = true ∧
      ∃ taken, taken ≠ [] ∧ reader = { after with ahead := taken ++ after.ahead } := by
  rw [Action.ofReading] at done
  cases run : reading.run reader.ahead with
  | error failure =>
      rw [run] at done
      cases done
  | ok read =>
      rw [run] at done
      cases done
      obtain ⟨starts, taken, filled, split⟩ := progresses run
      refine ⟨starts, taken, filled, ?_⟩
      rw [← split]

/-- Some tokens behind a start make up an operand with it, at every depth but the deepest two. -/
theorem Token.exists_operand (full : settings.mode.dialect = .full) {scope : Scope} {first : Token}
    (starts : first.kind ∈ operandStarts scope) :
    ∃ continuation, ∀ levels,
      (∀ link, ∃ read, (Grammar.operand (levels + 2) scope link).run (first :: continuation) =
        .ok (read, [])) ∧
      ∃ node, (Layered.operand settings (levels + 2) scope).run (first :: continuation) =
        .ok (node, []) := by
  obtain ⟨sign, body, rest, written⟩ := Token.exists_written starts
  refine ⟨rest, fun levels => ?_⟩
  have read (link : Link) : (Grammar.operand (levels + 2) scope link).run (first :: rest) =
      .ok (.mk link sign body none, []) := by
    obtain ⟨written, explicit⟩ := written link
    have back := written.readBack (explicit levels) Ended.all.settled Ended.all.noCaret
    rw [List.append_nil] at back
    exact back
  have mirrors := Layered.operand_mirrors full (levels + 2) scope
  have nodeRead := mirrors.yields .opening (first :: rest)
  rw [read] at nodeRead
  exact ⟨fun link => ⟨_, read link⟩, _, nodeRead⟩

/-- What each loop of the grammar does, of itself. -/
structure LoopsHalt (settings : Settings) (scope : Scope) (levels : Nat) (tokens : List Token) :
    Prop where
  operands : (Loop.whileAhead (Layered.laterAhead? scope (Grammar.operand levels scope))).Halts
    tokens ((laterOperands scope (Grammar.operand levels scope) tokens.length).run tokens)
  conjuncts : (Loop.whileAhead (Layered.conjunctAhead? (settings.conjoins scope) scope
      (Layered.operand settings levels scope))).Halts tokens
    ((Layered.manyHere (Layered.conjunctAhead? (settings.conjoins scope) scope
      (Layered.operand settings levels scope))).run tokens)
  alternatives : (Loop.whileAhead (Layered.alternativeAhead? (settings.conjoins scope) scope
      (Layered.operand settings levels scope))).Halts tokens
    ((Layered.manyHere (Layered.alternativeAhead? (settings.conjoins scope) scope
      (Layered.operand settings levels scope))).run tokens)
  fields : templateLoop.Halts tokens ((templateFields (tokens.length + 1)).run tokens)
  steps : proximityLoop.Halts tokens ((proximitySteps (tokens.length + 1)).run tokens)

theorem loopsHalt (full : settings.mode.dialect = .full) (scope : Scope) (levels : Nat)
    (tokens : List Token) : LoopsHalt settings scope levels tokens := by
  have node := (Layered.operand_progresses full levels scope).takes
  constructor
  case operands =>
    rw [Layered.laterOperands_eq_many]
    exact Layered.halts_many
      (Layered.steady_laterOperands fun link => (operand_progresses link).takes) tokens
  case conjuncts => exact Layered.halts_many (Layered.steady_conjuncts node) tokens
  case alternatives => exact Layered.halts_many (Layered.steady_alternatives node) tokens
  case fields =>
    rw [templateFields_eq_upTo]
    exact templateLoop_steady.halts (Nat.lt_succ_self _)
  case steps =>
    rw [proximitySteps_eq_upTo]
    exact proximityLoop_steady.halts (Nat.lt_succ_self _)

/-- What is read as operands begins as the lookahead asks for, and leaves the reader further on in
its tokens. If it fails, so does whatever has begun it. With every token that the lookahead accepts
some operand begins that is read wherever at least two levels are left, and no loop begins a round
for which nothing is left to take, its first round apart. -/
theorem operands_progress (full : settings.mode.dialect = .full) (scope : Scope) :
    (∀ (α : Type) (reading : Reading α) (reader after : Reader) (value : α),
      ReadsOperands settings scope (maxLevels - reader.depth) reading →
      Action.ofReading reading reader = (.ok value, after) →
        nextIn (operandStarts scope) reader.ahead = true ∧
          ∃ taken, taken ≠ [] ∧ reader = { after with ahead := taken ++ after.ahead }) ∧
    (∀ (α β : Type) (reading : Reading α) (outer : Reading β) (levels : Nat)
        (tokens place : List Token) (failure : Failure),
      ReadsOperands settings scope levels reading → outer.Begins tokens reading place →
      reading.run place = .error failure →
        ∃ rules, outer.run tokens = .error { failure with rules := rules ++ failure.rules }) ∧
    (∀ first : Token, first.kind ∈ operandStarts scope →
      ∃ continuation, ∀ reader : Reader, reader.depth < 63 →
        reader.ahead = first :: continuation →
          (∀ link, ∃ read,
            Action.ofReading (Grammar.operand (maxLevels - reader.depth) scope link) reader =
              (.ok read, { reader with ahead := [] })) ∧
          ∃ node,
            Action.ofReading (Layered.operand settings (maxLevels - reader.depth) scope) reader =
              (.ok node, { reader with ahead := [] })) ∧
    ∀ levels tokens, LoopsHalt settings scope levels tokens := by
  refine ⟨?moves, ?fails, ?continues, loopsHalt full scope⟩
  case moves =>
    intro α reading reader after value reads done
    exact (reads.progresses full).reader done
  case fails =>
    intro α β reading outer levels tokens place failure _ begins failed
    exact begins.run_eq_error failed
  case continues =>
    intro first starts
    obtain ⟨continuation, reads⟩ := Token.exists_operand full starts
    refine ⟨continuation, fun reader above ahead => ?_⟩
    obtain ⟨levels, left⟩ : ∃ levels, maxLevels - reader.depth = levels + 2 :=
      Nat.exists_eq_add_of_le' (by rw [maxLevels]; omega)
    obtain ⟨operand, node, nodeRead⟩ := reads levels
    rw [left]
    refine ⟨fun link => ?_, node, ?_⟩
    · obtain ⟨read, operandRead⟩ := operand link
      exact ⟨read, by rw [Action.ofReading, ahead, operandRead]⟩
    · rw [Action.ofReading, ahead, nodeRead]

/-- A sign before a name, and a sign that the query ends behind. -/
theorem operands_progress_of_plus :
    let plus : Token := ⟨.plus, "+", 0, 1⟩
    let name : Token := ⟨.id, "a", 1, 2⟩
    let reader : Reader := ⟨[plus, name, plus], [], 62, 0⟩
    let failure : Failure :=
      ⟨.noViableAlternative, testStarts .query, [], [.operand .query, .test .query]⟩
    Settings.standard.mode.dialect = .full ∧
    (∃ read, Action.ofReading (Grammar.operand 2 .query .and) reader =
        (.ok read, { reader with ahead := [plus] }) ∧
      nextIn (operandStarts .query) reader.ahead = true ∧
      ∃ taken, taken ≠ [] ∧ reader.ahead = taken ++ [plus]) ∧
    (Grammar.query.Begins [plus] (Grammar.operand 64 .query .opening) [plus] ∧
      ∃ rules, Grammar.query.run [plus] =
        .error { failure with rules := rules ++ failure.rules }) ∧
    (∃ continuation read, Action.ofReading (Grammar.operand 2 .query .and)
      { reader with ahead := plus :: continuation } = (.ok read, { reader with ahead := [] })) ∧
    LoopsHalt .standard .query 64 [plus, name, plus] := by
  intro plus name reader failure
  have full : Settings.standard.mode.dialect = .full := rfl
  obtain ⟨moves, fails, continues, halts⟩ := operands_progress full .query
  obtain ⟨read, done⟩ : ∃ read, Action.ofReading (Grammar.operand 2 .query .and) reader =
      (.ok read, { reader with ahead := [plus] }) := ⟨_, rfl⟩
  obtain ⟨starts, taken, filled, split⟩ := moves Operand _ reader _ read (.operand .and) done
  have begins : Grammar.query.Begins [plus] (Grammar.operand 64 .query .opening) [plus] :=
    .within (.first (.within (.first (.within (.behind rfl .here)))))
  obtain ⟨continuation, reads⟩ := continues plus (by decide)
  obtain ⟨follows, _⟩ :=
    reads { reader with ahead := plus :: continuation } (Nat.lt_succ_self 62) rfl
  obtain ⟨other, otherDone⟩ := follows .and
  exact ⟨full, ⟨read, done, starts, taken, filled, congrArg Reader.ahead split⟩,
    ⟨begins, fails _ _ _ _ 64 _ _ failure (.operand .opening) begins rfl⟩,
    ⟨continuation, other, otherDone⟩, halts 64 _⟩

end SearchQuery
