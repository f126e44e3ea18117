import Mathlib.Data.List.Infix
import SearchQuery.Proofs.Reading
set_option autoImplicit false

/-!
# Readings that stand by their trials

A reading comes to a stop at some place in the list, also when it fails. It is committed if it keeps
what its trials found: whenever one of them succeeds, the reading goes on to read at least as far as
the trial did. A failure of a trial that succeeded is therefore never seen. The conditions on the
trials and on the rules of a failure are parameters, so one walk through a grammar settles what it
tries and what it blames.
-/

namespace SearchQuery

/-- A trial within a reading that began at some tokens and came to a stop at others. -/
structure Trial.KeptBy (trial : Trial) (tokens stop : List Token) : Prop where
  begins : trial.start <:+ tokens
  passed : stop <:+ trial.start
  reaches : trial.accepted = true → stop <:+ trial.reached

namespace Trial.KeptBy

variable {trial : Trial} {tokens stop : List Token}

theorem of_later (kept : trial.KeptBy tokens stop) {final : List Token} (further : final <:+ stop) :
    trial.KeptBy tokens final where
  begins := kept.begins
  passed := further.trans kept.passed
  reaches accepted := further.trans (kept.reaches accepted)

theorem of_earlier (kept : trial.KeptBy tokens stop) {first : List Token}
    (earlier : tokens <:+ first) : trial.KeptBy first stop where
  begins := kept.begins.trans earlier
  passed := kept.passed
  reaches := kept.reaches

end Trial.KeptBy

namespace Reading

variable {α β : Type} {tried : Trial → Prop} {blamed : List Rule → Prop}

/-- The tokens that a reading leaves, or that were left when it failed. -/
def stop (reading : Reading α) (tokens : List Token) : List Token :=
  match reading.run tokens with
  | .ok (_, rest) => rest
  | .error failure => failure.ahead

theorem stop_eq_of_ok {reading : Reading α} {tokens rest : List Token} {value : α}
    (accepted : reading.run tokens = .ok (value, rest)) : reading.stop tokens = rest := by
  simp only [stop, accepted]

theorem stop_eq_of_error {reading : Reading α} {tokens : List Token} {failure : Failure}
    (rejected : reading.run tokens = .error failure) : reading.stop tokens = failure.ahead := by
  simp only [stop, rejected]

/-- One reading does at some tokens what another one does at others, trials included. -/
structure Resumes (reading : Reading α) (tokens : List Token) (later : Reading α)
    (rest : List Token) : Prop where
  run : reading.run tokens = later.run rest
  trials : reading.trials tokens = later.trials rest

theorem Resumes.within {reading later : Reading α} {tokens rest : List Token}
    (resumes : Resumes reading tokens later rest) (rule : Rule) :
    Resumes (within rule reading) tokens (within rule later) rest where
  run := by simp only [Reading.within, resumes.run]
  trials := resumes.trials

/-- A reading of some tokens that keeps what its trials found. -/
structure CommittedAt (tried : Trial → Prop) (blamed : List Rule → Prop) (reading : Reading α)
    (tokens : List Token) : Prop where
  stops : reading.stop tokens <:+ tokens
  blames : ∀ failure, reading.run tokens = .error failure → blamed failure.rules
  keeps : ∀ trial ∈ reading.trials tokens,
    tried trial ∧ trial.KeptBy tokens (reading.stop tokens)

def Committed (tried : Trial → Prop) (blamed : List Rule → Prop) (reading : Reading α) : Prop :=
  ∀ tokens, CommittedAt tried blamed reading tokens

/-- A reading that makes no trial. -/
def Plain (reading : Reading α) : Prop :=
  Committed (fun _ => False) (fun _ => True) reading

theorem Plain.trials_eq_nil {reading : Reading α} (plain : Plain reading) (tokens : List Token) :
    reading.trials tokens = [] :=
  List.eq_nil_iff_forall_not_mem.mpr fun trial member => ((plain tokens).keeps trial member).1

/-- What a reading without trials has read is behind it. -/
theorem Plain.resumes {first : Reading α} (plain : Plain first) {tokens rest : List Token}
    {value : α} (accepted : first.run tokens = .ok (value, rest)) (next : α → Reading β) :
    Resumes (first >>= next) tokens (next value) rest where
  run := by rw [run_bind, accepted]
  trials := by
    change first.trials tokens ++ _ = _
    rw [plain.trials_eq_nil, accepted, List.nil_append]

/-- A reading that does what another one does behind some of the tokens, after trials that did not
read further than that. -/
theorem CommittedAt.of_continues {reading later : Reading α} {tokens rest : List Token}
    {earlier : List Trial} (committed : CommittedAt tried blamed later rest)
    (suffix : rest <:+ tokens) (run : reading.run tokens = later.run rest)
    (trials : reading.trials tokens = earlier ++ later.trials rest)
    (kept : ∀ trial ∈ earlier, tried trial ∧ trial.KeptBy tokens rest) :
    CommittedAt tried blamed reading tokens := by
  have sameStop : reading.stop tokens = later.stop rest := by simp only [stop, run]
  refine ⟨?stops, ?blames, ?keeps⟩
  case stops =>
    rw [sameStop]
    exact committed.stops.trans suffix
  case blames =>
    rw [run]
    exact committed.blames
  case keeps =>
    rw [sameStop, trials]
    intro trial member
    rcases List.mem_append.mp member with first | second
    · obtain ⟨isTried, keptSoFar⟩ := kept trial first
      exact ⟨isTried, keptSoFar.of_later committed.stops⟩
    · obtain ⟨isTried, keptBehind⟩ := committed.keeps trial second
      exact ⟨isTried, keptBehind.of_earlier suffix⟩

namespace Committed

theorem mono {reading : Reading α} {weaker : List Rule → Prop}
    (committed : Committed tried blamed reading) (weaken : ∀ rules, blamed rules → weaker rules) :
    Committed tried weaker reading := by
  intro tokens
  obtain ⟨stops, blames, keeps⟩ := committed tokens
  exact ⟨stops, fun failure rejected => weaken _ (blames failure rejected), keeps⟩

/-- A reading that makes no trial, and fails where it begins if it fails. -/
theorem of_step {reading : Reading α} (unblamed : blamed [])
    (noTrials : ∀ tokens, reading.trials tokens = [])
    (step : ∀ tokens, (∃ value rest, rest <:+ tokens ∧ reading.run tokens = .ok (value, rest)) ∨
      ∃ cause expected, reading.run tokens = .error ⟨cause, expected, tokens, []⟩) :
    Committed tried blamed reading := by
  intro tokens
  refine ⟨?stops, ?blames, ?keeps⟩
  case stops =>
    obtain ⟨value, rest, suffix, accepted⟩ | ⟨cause, expected, rejected⟩ := step tokens
    · rw [stop_eq_of_ok accepted]
      exact suffix
    · rw [stop_eq_of_error rejected]
  case blames =>
    intro failure failed
    obtain ⟨value, rest, suffix, accepted⟩ | ⟨cause, expected, rejected⟩ := step tokens
    · rw [accepted] at failed
      cases failed
    · rw [rejected] at failed
      cases failed
      exact unblamed
  case keeps =>
    rw [noTrials tokens]
    exact nofun

theorem pure (value : α) : Committed tried blamed (Pure.pure value) :=
  fun _ => ⟨List.suffix_rfl, nofun, nofun⟩

theorem fail (unblamed : blamed []) (cause : ParseFault) (expected : List TokenKind) :
    Committed tried blamed (Reading.fail cause expected : Reading α) :=
  of_step unblamed (fun _ => rfl) fun _ => .inr ⟨cause, expected, rfl⟩

theorem advance (unblamed : blamed []) : Committed tried blamed Reading.advance := by
  refine of_step unblamed (fun _ => rfl) fun tokens => ?_
  cases tokens with
  | nil => exact .inr ⟨_, _, rfl⟩
  | cons token rest => exact .inl ⟨_, rest, List.suffix_cons token rest, rfl⟩

theorem takeOneOf (unblamed : blamed []) (kinds : List TokenKind) :
    Committed tried blamed (Reading.takeOneOf kinds) := by
  refine of_step unblamed (fun _ => rfl) fun tokens => ?_
  cases tokens with
  | nil => exact .inr ⟨_, _, rfl⟩
  | cons token rest =>
      simp only [Reading.takeOneOf]
      split
      · exact .inl ⟨_, rest, List.suffix_cons token rest, rfl⟩
      · exact .inr ⟨_, _, rfl⟩

theorem take (unblamed : blamed []) (kind : TokenKind) :
    Committed tried blamed (Reading.take kind) := by
  refine of_step unblamed (fun _ => rfl) fun tokens => ?_
  cases tokens with
  | nil => exact .inr ⟨_, _, rfl⟩
  | cons token rest =>
      simp only [Reading.take]
      split
      · exact .inl ⟨_, rest, List.suffix_cons token rest, rfl⟩
      · exact .inr ⟨_, _, rfl⟩

theorem atEnd (unblamed : blamed []) : Committed tried blamed Reading.atEnd := by
  refine of_step unblamed (fun _ => rfl) fun tokens => ?_
  cases tokens with
  | nil => exact .inl ⟨_, [], List.suffix_rfl, rfl⟩
  | cons token rest => exact .inr ⟨_, _, rfl⟩

theorem look {choose : List Token → Reading α}
    (each : ∀ tokens, Committed tried blamed (choose tokens)) :
    Committed tried blamed (Reading.look choose) := by
  intro tokens
  obtain ⟨stops, blames, keeps⟩ := each tokens tokens
  exact ⟨stops, blames, keeps⟩

theorem within {outer : List Rule → Prop} {rule : Rule} {inner : Reading α}
    (committed : Committed tried blamed inner)
    (entered : ∀ rules, blamed rules → outer (rule :: rules)) :
    Committed tried outer (Reading.within rule inner) := by
  intro tokens
  obtain ⟨stops, blames, keeps⟩ := committed tokens
  have sameStop : (Reading.within rule inner).stop tokens = inner.stop tokens := by
    simp only [stop, Reading.within]
    cases inner.run tokens <;> rfl
  refine ⟨?stops, ?blames, ?keeps⟩
  case stops =>
    rw [sameStop]
    exact stops
  case blames =>
    intro failure rejected
    obtain ⟨inside, run, rfl⟩ := run_within_eq_error_iff.mp rejected
    exact entered _ (blames inside run)
  case keeps =>
    rw [sameStop]
    exact keeps

theorem bind {first : Reading α} {next : α → Reading β} (committed : Committed tried blamed first)
    (nextCommitted : ∀ value, Committed tried blamed (next value)) :
    Committed tried blamed (first >>= next) := by
  intro tokens
  obtain ⟨stops, blames, keeps⟩ := committed tokens
  have trials : (first >>= next).trials tokens = first.trials tokens ++
      match first.run tokens with
      | .ok (value, rest) => (next value).trials rest
      | .error _ => [] := rfl
  cases run : first.run tokens with
  | ok read =>
      obtain ⟨value, between⟩ := read
      rw [stop_eq_of_ok run] at stops keeps
      rw [run] at trials
      refine (nextCommitted value between).of_continues stops ?_ trials keeps
      rw [run_bind, run]
  | error failure =>
      have rejected : (first >>= next).run tokens = .error failure := by rw [run_bind, run]
      rw [stop_eq_of_error run] at stops keeps
      rw [run, List.append_nil] at trials
      refine ⟨?_, fun other same => ?_, ?_⟩
      · rw [stop_eq_of_error rejected]
        exact stops
      · rw [rejected] at same
        cases same
        exact blames failure run
      · rw [stop_eq_of_error rejected, trials]
        exact keeps

/-- A trial and what is decided by it. Where the trial succeeds, what is decided must go on behind
the tokens that the trial has read, as some committed reading does. -/
theorem attempt {inner : Reading α} {next : Bool → Reading β} (plain : Plain inner)
    (isTried : ∀ tokens, tried ⟨tokens, inner.stop tokens, (inner.run tokens).isOk⟩)
    (succeeded : ∀ tokens value rest, inner.run tokens = .ok (value, rest) →
      ∃ later, Committed tried blamed later ∧ Resumes (next true) tokens later rest)
    (failed : Committed tried blamed (next false)) :
    Committed tried blamed (wouldSucceed inner >>= next) := by
  intro tokens
  have noneWithin := plain.trials_eq_nil tokens
  have stops := (plain tokens).stops
  have outcome := isTried tokens
  have run : (wouldSucceed inner >>= next).run tokens =
      (next (inner.run tokens).isOk).run tokens := by
    rw [run_bind, run_wouldSucceed]
  have trials : (wouldSucceed inner >>= next).trials tokens =
      [⟨tokens, inner.stop tokens, (inner.run tokens).isOk⟩] ++
        (next (inner.run tokens).isOk).trials tokens := by
    change (wouldSucceed inner).trials tokens ++ _ = _
    simp only [wouldSucceed, noneWithin, stop]
    cases inner.run tokens <;> rfl
  cases innerRun : inner.run tokens with
  | error failure =>
      rw [innerRun] at outcome run trials
      refine (failed tokens).of_continues List.suffix_rfl run trials fun trial member => ?_
      cases List.mem_singleton.mp member
      exact ⟨outcome, List.suffix_rfl, List.suffix_rfl, nofun⟩
  | ok read =>
      obtain ⟨value, rest⟩ := read
      obtain ⟨later, committed, resumes⟩ := succeeded tokens value rest innerRun
      rw [innerRun] at outcome run trials
      rw [stop_eq_of_ok innerRun] at stops outcome trials
      have trialsBehind := trials.trans (congrArg _ resumes.trials)
      refine (committed rest).of_continues stops (run.trans resumes.run) trialsBehind
        fun trial member => ?_
      cases List.mem_singleton.mp member
      exact ⟨outcome, List.suffix_rfl, stops, fun _ => List.suffix_rfl⟩

end Committed

end Reading

end SearchQuery
