import SearchQuery.Parse
import SearchQuery.Proofs.Completion.Parentheses
set_option autoImplicit false

/-!
# Why a reading fails

A failure is explained by the tokens that were left when it arose, by the active rules, and by how
many parentheses were open. There is one explanation for each place of the two grammars that gives
up. How a failure is explained is kept by everything that readings are put together with, as long as
what is read before closes the parentheses that it opens.
-/

namespace SearchQuery

open Grammar

/-- Why a dialect is given up where so many parentheses are open. -/
inductive Failure.Explained (depth : Int) : Dialect → Failure → Prop where
  | missing {dialect : Dialect} {kind : TokenKind} {rules : List Rule} :
      (kind = .rparen → 0 < depth) →
      Explained depth dialect ⟨.missingExpectedToken, [kind], [], rules⟩
  | mismatched {dialect : Dialect} {kind : TokenKind} {token : Token} {behind : List Token}
      {rules : List Rule} :
      token.kind ≠ kind → (kind = .rparen → 0 < depth) →
      Explained depth dialect ⟨.mismatchedToken, [kind], token :: behind, rules⟩
  | outside {dialect : Dialect} {kinds : List TokenKind} {ahead : List Token} {rules : List Rule} :
      nextIn kinds ahead = false → .rparen ∉ kinds →
      Explained depth dialect ⟨.mismatchedTokenSet, kinds, ahead, rules⟩
  | leftOver {token : Token} {behind : List Token} :
      Explained depth .full ⟨.unexpectedExtraToken, [], token :: behind, [.query]⟩
  | noOperand {scope : Scope} {ahead : List Token} {rules : List Rule} :
      nextIn (operandStarts scope) ahead = false →
      Explained depth .full ⟨.emptyRequiredRepetition, operandStarts scope, ahead, rules⟩
  | noField {ahead : List Token} {rules : List Rule} :
      nextIs .rparen ahead = true →
      Explained depth .full ⟨.emptyRequiredRepetition, [.atSign, .uri, .id], ahead, rules⟩
  | noTest {scope : Scope} {ahead : List Token} {outer : List Rule} :
      testShape? scope ahead = none → (testQualifierForm scope).run ahead = .ok (none, ahead) →
      Explained depth .full
        ⟨.noViableAlternative, testStarts scope, ahead, outer ++ [.test scope]⟩
  | noValue {ahead : List Token} {outer : List Rule} :
      valueShape? ahead = none →
      Explained depth .full
        ⟨.noViableAlternative, if ahead.isEmpty then [] else valueStarts, ahead,
          outer ++ [.fieldQualified]⟩
  | suffixAgain {ahead : List Token} {rules : List Rule} :
      nextIs .tilde ahead = true →
      Explained depth .full ⟨.noViableAlternative, [], ahead, rules⟩
  | tooDeep {scope : Scope} {ahead : List Token} {outer : List Rule} :
      depth = maxLevels → nextIn (operandStarts scope) ahead = true →
      Explained depth .full ⟨.nestingTooDeep, [], ahead, outer ++ [.operand scope]⟩
  | noItem {ahead : List Token} {rules : List Rule} :
      ahead = [] ∨ Cmis.dividerAhead ahead = true →
      Explained depth .cmis ⟨.emptyRequiredRepetition, Cmis.itemStarts, ahead, rules⟩
  | noItemTest {ahead : List Token} {rules : List Rule} :
      nextIn (TokenKind.words ++ [.phrase]) ahead = false →
      Explained depth .cmis ⟨.noViableAlternative, TokenKind.words ++ [.phrase], ahead, rules⟩

namespace Reading

variable {α β : Type} {dialect : Dialect} {outer : List Rule} {depth : Int} {tokens : List Token}

/-- If the reading fails at these tokens, within these rules and with so many parentheses open, the
failure is explained. -/
def ExplainedAt (dialect : Dialect) (outer : List Rule) (depth : Int) (reading : Reading α)
    (tokens : List Token) : Prop :=
  ∀ failure, reading.run tokens = .error failure →
    ∃ front, tokens = front ++ failure.ahead ∧
      Failure.Explained (depth + opened front) dialect
        { failure with rules := outer ++ failure.rules }

def Explained (dialect : Dialect) (outer : List Rule) (depth : Int) (reading : Reading α) : Prop :=
  ∀ tokens, ExplainedAt dialect outer depth reading tokens

/-- A reading closes the parentheses that it opens. -/
def Closes (reading : Reading α) : Prop :=
  reading.Writes fun _ taken => opened taken = 0

/-- A reading that takes nothing and does not fail. -/
def Quiet (reading : Reading α) : Prop :=
  ∀ tokens, ∃ value, reading.run tokens = .ok (value, tokens)

namespace ExplainedAt

theorem of_explained {reading : Reading α} (explained : Explained dialect outer depth reading) :
    ExplainedAt dialect outer depth reading tokens :=
  explained tokens

theorem of_run_eq {reading : Reading α} {other : Reading α}
    (same : reading.run tokens = other.run tokens)
    (explained : ExplainedAt dialect outer depth other tokens) :
    ExplainedAt dialect outer depth reading tokens := by
  intro failure rejected
  exact explained failure (same ▸ rejected)

theorem of_ok {reading : Reading α} {result : α × List Token}
    (accepted : reading.run tokens = .ok result) :
    ExplainedAt dialect outer depth reading tokens := by
  intro failure rejected
  rw [accepted] at rejected
  cases rejected

theorem fail {cause : ParseFault} {expected : List TokenKind}
    (explained : Failure.Explained depth dialect ⟨cause, expected, tokens, outer⟩) :
    ExplainedAt dialect outer depth (Reading.fail cause expected : Reading α) tokens := by
  intro failure rejected
  cases rejected
  refine ⟨[], rfl, ?_⟩
  simpa using explained

theorem within {rule : Rule} {reading : Reading α}
    (explained : ExplainedAt dialect (outer ++ [rule]) depth reading tokens) :
    ExplainedAt dialect outer depth (Reading.within rule reading) tokens := by
  intro failure rejected
  obtain ⟨inside, run, rfl⟩ := run_within_eq_error_iff.mp rejected
  obtain ⟨front, split, explained⟩ := explained inside run
  refine ⟨front, split, ?_⟩
  simpa using explained

/-- What goes on behind the first part has the parentheses open that the first part has opened. -/
theorem bind {first : Reading α} {next : α → Reading β}
    (explained : ExplainedAt dialect outer depth first tokens)
    (behind : ∀ value rest, first.run tokens = .ok (value, rest) →
      ∃ taken, tokens = taken ++ rest ∧
        ExplainedAt dialect outer (depth + opened taken) (next value) rest) :
    ExplainedAt dialect outer depth (first >>= next) tokens := by
  intro failure rejected
  rw [run_bind] at rejected
  cases run : first.run tokens with
  | error inside =>
      rw [run] at rejected
      cases rejected
      exact explained failure run
  | ok read =>
      obtain ⟨value, rest⟩ := read
      rw [run] at rejected
      obtain ⟨taken, rfl, later⟩ := behind value rest run
      obtain ⟨front, rfl, because⟩ := later failure rejected
      refine ⟨taken ++ front, by rw [List.append_assoc], ?_⟩
      rwa [opened_append, ← Int.add_assoc]

theorem bind_closed {first : Reading α} {next : α → Reading β} (closes : first.Closes)
    (explained : ExplainedAt dialect outer depth first tokens)
    (behind : ∀ value rest, first.run tokens = .ok (value, rest) →
      ExplainedAt dialect outer depth (next value) rest) :
    ExplainedAt dialect outer depth (first >>= next) tokens := by
  refine explained.bind fun value rest accepted => ?_
  obtain ⟨taken, split, closed⟩ := closes accepted
  refine ⟨taken, split, ?_⟩
  rw [closed, Int.add_zero]
  exact behind value rest accepted

/-- What comes first takes nothing and does not fail. -/
theorem bind_quiet {first : Reading α} {next : α → Reading β} (quiet : first.Quiet)
    (behind : ∀ value, first.run tokens = .ok (value, tokens) →
      ExplainedAt dialect outer depth (next value) tokens) :
    ExplainedAt dialect outer depth (first >>= next) tokens := by
  obtain ⟨value, accepted⟩ := quiet tokens
  refine of_run_eq ?_ (behind value accepted)
  rw [run_bind, accepted]

/-- A token that is ahead is taken. -/
theorem advance_bind {token : Token} {rest : List Token} {next : Reading β}
    (behind : ExplainedAt dialect outer (depth + token.opens) next rest) :
    ExplainedAt dialect outer depth (do advance; next) (token :: rest) := by
  refine bind (of_ok rfl) fun value between accepted => ?_
  cases accepted
  refine ⟨[token], rfl, ?_⟩
  simpa using behind

theorem advance_closed {token : Token} {rest : List Token} {next : Reading β}
    (closed : token.opens = 0) (behind : ExplainedAt dialect outer depth next rest) :
    ExplainedAt dialect outer depth (do advance; next) (token :: rest) := by
  apply advance_bind
  rwa [closed, Int.add_zero]

end ExplainedAt

namespace Explained

theorem pure (value : α) : Explained dialect outer depth (Pure.pure value) :=
  fun tokens => .of_ok (run_pure value tokens)

theorem look {choose : List Token → Reading α}
    (each : ∀ tokens, ExplainedAt dialect outer depth (choose tokens) tokens) :
    Explained dialect outer depth (Reading.look choose) :=
  each

theorem within {rule : Rule} {reading : Reading α}
    (explained : Explained dialect (outer ++ [rule]) depth reading) :
    Explained dialect outer depth (Reading.within rule reading) :=
  fun tokens => (explained tokens).within

theorem bind {first : Reading α} {next : α → Reading β} (closes : first.Closes)
    (explained : Explained dialect outer depth first)
    (behind : ∀ value, Explained dialect outer depth (next value)) :
    Explained dialect outer depth (first >>= next) :=
  fun tokens => (explained tokens).bind_closed closes fun value rest _ => behind value rest

theorem bind_pure {reading : Reading α} (explained : Explained dialect outer depth reading)
    (change : α → β) : Explained dialect outer depth (do return change (← reading)) := by
  intro tokens failure rejected
  rw [run_bind] at rejected
  split at rejected
  · cases rejected
  · next inside run =>
      cases rejected
      exact explained tokens _ run

theorem takeOneOf {kinds : List TokenKind} (apart : TokenKind.rparen ∉ kinds) :
    Explained dialect outer depth (Reading.takeOneOf kinds) := by
  intro tokens failure rejected
  refine ⟨[], ?_⟩
  cases tokens with
  | nil =>
      cases rejected
      exact ⟨rfl, .outside rfl apart⟩
  | cons token rest =>
      simp only [Reading.takeOneOf] at rejected
      split at rejected
      · cases rejected
      · next other =>
          cases rejected
          exact ⟨rfl, .outside (by simpa [nextIn] using other) apart⟩

theorem take {kind : TokenKind} (deep : kind = .rparen → 0 < depth) :
    Explained dialect outer depth (Reading.take kind) := by
  intro tokens failure rejected
  refine ⟨[], ?_⟩
  rw [opened_nil, Int.add_zero]
  cases tokens with
  | nil =>
      cases rejected
      exact ⟨rfl, .missing deep⟩
  | cons token rest =>
      simp only [Reading.take] at rejected
      split at rejected
      · cases rejected
      · next other =>
          cases rejected
          exact ⟨rfl, .mismatched (by simpa using other) deep⟩

end Explained

namespace Closes

theorem pure (value : α) : (Pure.pure value : Reading α).Closes := by
  intro tokens rest result accepted
  obtain ⟨_, rfl⟩ := run_pure_eq_ok_iff.mp accepted
  exact ⟨[], rfl, rfl⟩

theorem look {choose : List Token → Reading α} (each : ∀ tokens, (choose tokens).Closes) :
    (Reading.look choose).Closes :=
  fun tokens _ _ accepted => each tokens accepted

theorem bind_pure {reading : Reading α} (closes : reading.Closes) (change : α → β) :
    Closes (do return change (← reading)) := by
  intro tokens rest result accepted
  obtain ⟨_, _, read, accepted⟩ := run_bind_eq_ok_iff.mp accepted
  obtain ⟨_, rfl⟩ := run_pure_eq_ok_iff.mp accepted
  exact closes read

theorem within {rule : Rule} {reading : Reading α} (closes : reading.Closes) :
    (Reading.within rule reading).Closes :=
  fun _ _ _ accepted => closes ((run_within_eq_ok_iff rule reading _ _).mp accepted)

theorem takeOneOf {kinds : List TokenKind}
    (apart : TokenKind.lparen ∉ kinds ∧ TokenKind.rparen ∉ kinds) :
    (Reading.takeOneOf kinds).Closes := by
  refine takeOneOf_written.mono fun leaf taken written => ?_
  obtain ⟨token, same, rfl⟩ := written
  simp [same.opens apart]

theorem take {kind : TokenKind} (apart : kind ≠ .lparen ∧ kind ≠ .rparen) :
    (Reading.take kind).Closes := by
  refine take_written.mono fun leaf taken written => ?_
  obtain ⟨token, same, rfl⟩ := written
  simp [Token.opens_eq_zero_of_kind same.kind_eq apart]

end Closes

namespace Explained

theorem bind_takeOneOf {kinds : List TokenKind} {next : Leaf kinds → Reading β}
    (apart : TokenKind.lparen ∉ kinds ∧ TokenKind.rparen ∉ kinds)
    (behind : ∀ leaf, Explained dialect outer depth (next leaf)) :
    Explained dialect outer depth (Reading.takeOneOf kinds >>= next) :=
  .bind (.takeOneOf apart) (.takeOneOf apart.2) behind

theorem bind_take {kind : TokenKind} {next : Leaf [kind] → Reading β}
    (apart : kind ≠ .lparen ∧ kind ≠ .rparen)
    (behind : ∀ leaf, Explained dialect outer depth (next leaf)) :
    Explained dialect outer depth (Reading.take kind >>= next) :=
  .bind (.take apart) (.take fun same => absurd same apart.2) behind

end Explained

theorem wouldSucceed_quiet (inner : Reading α) : (wouldSucceed inner).Quiet :=
  fun tokens => ⟨_, run_wouldSucceed inner tokens⟩

end Reading

end SearchQuery
