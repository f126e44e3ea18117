import Mathlib.Data.List.Nodup
import SearchQuery.Proofs.Accepted
import SearchQuery.Proofs.Speculation.Machine
import SearchQuery.Proofs.Speculation.Trials
set_option autoImplicit false

/-!
# Trials are never seen

A trial leaves the reader as it was, and what it found is kept, so a failure is always one of the
reading that counts. In the rules of an error this shows: they begin with the query, and those that
are tried are not among them, the field of a template apart.
-/

namespace SearchQuery

open Grammar Reading

/-- The rule that every reading of a dialect is part of. -/
def Dialect.rule : Dialect → Rule
  | .full => .query
  | .cmis => .cmisQuery

namespace Rule

def all : List Rule :=
  [query, cmisQuery, cmisDisjunction, cmisConjunction, cmisOperand, cmisTest, term, phrase,
    exactTerm, synonym, fieldReference, fieldQualified, fuzzy, slop, boost, template, range,
    proximity] ++
  [Scope.query, Scope.fieldGroup].flatMap fun scope =>
    [disjunction scope, conjunction scope, operand scope, test scope, group scope]

theorem mem_all (rule : Rule) : rule ∈ all := by
  cases rule with
  | disjunction scope => cases scope <;> decide
  | conjunction scope => cases scope <;> decide
  | operand scope => cases scope <;> decide
  | test scope => cases scope <;> decide
  | group scope => cases scope <;> decide
  | _ => decide

theorem name_injective : Function.Injective name :=
  fun first second => List.inj_on_of_nodup_map (by decide) (mem_all first) (mem_all second)

end Rule

theorem readQuery_head_rule {dialect : Dialect} {tokens : List Token} {failure : Failure}
    (rejected : (readQuery dialect).run tokens = .error failure) :
    failure.rules.head? = some dialect.rule := by
  cases dialect with
  | full =>
      obtain ⟨inside, _, rfl⟩ := run_within_eq_error_iff.mp rejected
      rfl
  | cmis =>
      obtain ⟨inside, _, rfl⟩ := run_within_eq_error_iff.mp rejected
      rfl

/-- What names say about rules is said about the rules themselves. -/
theorem Tidy.names {rules : List Rule} (tidy : Tidy rules) :
    "proximity" ∉ rules.map Rule.name ∧
      ∀ before after, rules.map Rule.name = before ++ "field_reference" :: after →
        after = [] ∧ before.getLast? = some "template" := by
  constructor
  · intro member
    have named : Rule.proximity ∈ rules :=
      (List.mem_map_of_injective Rule.name_injective).mp member
    exact tidy.proximity_not_mem named
  · intro before after split
    obtain ⟨outer, inner, rfl, rfl, named⟩ := List.map_eq_append_iff.mp split
    obtain ⟨rule, innermost, rfl, same, rfl⟩ := List.map_eq_cons_iff.mp named
    obtain rfl : rule = .fieldReference := Rule.name_injective same
    obtain ⟨rfl, last⟩ := tidy.fieldReference_last rfl
    exact ⟨rfl, by rw [List.getLast?_map, last]; rfl⟩

/-- Tokens are read by a reader from the start. What the grammar tries, a reader runs and puts its
state back, wherever it is; and a trial that succeeds foretells the reading that counts. In a whole
query every trial is of a proximity or a field, and where it succeeds the query is read at least as
far. So a failure is never that of a trial, and its rules are the active ones. -/
theorem parseTokens_hides_trials (settings : Settings) (tokens : List Token) :
    readTokens settings.mode tokens =
      (Action.ofReading (readQuery settings.mode.dialect) (Reader.start tokens)).1 ∧
    (∀ (α : Type) (reading : Reading α) (reader : Reader),
      Action.ofReading (wouldSucceed reading) reader =
        Action.trial (.ofReading reading) reader ∧
      (Action.trial (.ofReading reading) reader).2 = reader ∧
      ((Action.trial (.ofReading reading) reader).1 = .ok true →
        ∃ value, Action.ofReading reading reader =
          (.ok value,
            { reader with ahead := (Action.ofReading reading reader.speculating).2.ahead }))) ∧
    (∀ trial ∈ (readQuery settings.mode.dialect).trials tokens,
      Guessed trial ∧ trial.KeptBy tokens ((readQuery settings.mode.dialect).stop tokens)) ∧
    ∀ error, parseTokens settings tokens = .error error →
      error.rules.head? = some (if settings.mode = .cmis then "cmis_query" else "query") ∧
        "proximity" ∉ error.rules ∧
        ∀ before after, error.rules = before ++ "field_reference" :: after →
          after = [] ∧ before.getLast? = some "template" := by
  have committed := readQuery_committed settings.mode.dialect tokens
  refine ⟨Action.readTokens_eq settings.mode tokens, fun α reading reader => ?_, committed.keeps,
    fun error rejected => ?_⟩
  · exact ⟨congrFun (Action.ofReading_wouldSucceed reading) reader,
      Action.trial_state reading reader, Action.ofReading_of_trial⟩
  · obtain ⟨failure, read, rfl⟩ := parseTokens_eq_error_iff.mp rejected
    have run := readTokens_eq_error_iff.mp read
    refine ⟨?_, (committed.blames failure run).names⟩
    rw [Failure.locate, List.head?_map, readQuery_head_rule run]
    cases settings.mode <;> rfl

/-- A qualified field in a template is tried once and read once; what fails is the second field,
after a trial that failed too. -/
theorem template_with_open_list :
    let tokens : List Token :=
      [⟨.percent, "%", 0, 1⟩, ⟨.lparen, "(", 1, 2⟩, ⟨.id, "cm", 2, 4⟩, ⟨.colon, ":", 4, 5⟩,
        ⟨.id, "name", 5, 9⟩, ⟨.phrase, "\"x\"", 9, 12⟩]
    ∃ error, parseTokens .standard tokens = .error error ∧ error.position.index = 5 ∧
      (readQuery .full).trials tokens =
        [⟨tokens.drop 2, tokens.drop 5, true⟩, ⟨tokens.drop 5, tokens.drop 5, false⟩] ∧
      error.rules.head? = some "query" ∧ "proximity" ∉ error.rules ∧
      error.rules.dropLast.getLast? = some "template" ∧
      error.rules.getLast? = some "field_reference" := by
  intro tokens
  obtain ⟨error, rejected, index, rules⟩ : ∃ error, parseTokens .standard tokens = .error error ∧
      error.position.index = 5 ∧ error.rules = ["query", "disjunction", "conjunction", "prefixed",
        "test", "template"] ++ ["field_reference"] := ⟨_, rfl, rfl, rfl⟩
  have hidden := (parseTokens_hides_trials .standard tokens).2.2.2 error rejected
  have last := (hidden.2.2 _ [] rules).2
  refine ⟨error, rejected, index, rfl, hidden.1, hidden.2.1, ?_, ?_⟩
  · rw [rules, List.dropLast_concat]
    exact last
  · rw [rules, List.getLast?_concat]

end SearchQuery
