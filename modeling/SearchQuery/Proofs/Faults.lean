import SearchQuery.Proofs.Caret
import SearchQuery.Proofs.Completion
import SearchQuery.Proofs.Faults.Grammar
import SearchQuery.Proofs.Speculation
set_option autoImplicit false

/-!
# What parse errors say

Since every failure is explained, what an error says about the tokens can be read off: it fits the
token that was found, and it blames open parentheses only where some are open. It may still name the
kind of the token that it rejects, when that token is only spoilt by what is behind it.
-/

namespace SearchQuery

open Grammar Reading

/-!
## Explanations taken apart
-/

namespace Failure.Explained

variable {depth : Int} {dialect : Dialect} {failure : Failure}

theorem cause_ne_failedModePredicate (explained : failure.Explained depth dialect) :
    failure.cause ≠ .failedModePredicate := by
  intro cause
  cases explained <;> cases cause

theorem ahead_of_missing (explained : failure.Explained depth dialect)
    (cause : failure.cause = .missingExpectedToken) :
    failure.ahead = [] ∧ ∃ kind, failure.expected = [kind] := by
  cases explained with
  | missing _ => exact ⟨rfl, _, rfl⟩
  | _ => cases cause

theorem ahead_of_mismatched (explained : failure.Explained depth dialect)
    (cause : failure.cause = .mismatchedToken) :
    ∃ kind token behind, failure.expected = [kind] ∧ failure.ahead = token :: behind ∧
      token.kind ≠ kind := by
  cases explained with
  | mismatched other _ => exact ⟨_, _, _, rfl, rfl, other⟩
  | _ => cases cause

theorem nextIn_of_mismatchedSet (explained : failure.Explained depth dialect)
    (cause : failure.cause = .mismatchedTokenSet) :
    nextIn failure.expected failure.ahead = false := by
  cases explained with
  | outside absent _ => exact absent
  | _ => cases cause

theorem ahead_of_extra (explained : failure.Explained depth dialect)
    (cause : failure.cause = .unexpectedExtraToken) :
    failure.ahead ≠ [] ∧ failure.rules = [.query] := by
  cases explained with
  | leftOver => exact ⟨List.cons_ne_nil _ _, rfl⟩
  | _ => cases cause

/-- A closing parenthesis is asked for only where one is missing. -/
theorem open_of_rparen (explained : failure.Explained depth dialect)
    (wanted : .rparen ∈ failure.expected) : 0 < depth := by
  cases explained with
  | missing deep => exact deep (List.mem_singleton.mp wanted).symm
  | mismatched _ deep => exact deep (List.mem_singleton.mp wanted).symm
  | outside _ apart => exact absurd wanted apart
  | @noOperand scope _ _ _ =>
      have apart : TokenKind.rparen ∉ operandStarts scope := by cases scope <;> decide
      exact absurd wanted apart
  | @noTest scope _ _ _ _ =>
      have apart : TokenKind.rparen ∉ testStarts scope := by cases scope <;> decide
      exact absurd wanted apart
  | @noValue ahead _ _ =>
      have apart : TokenKind.rparen ∉ if ahead.isEmpty then [] else valueStarts := by
        split <;> decide
      exact absurd wanted apart
  | noField _ | noItem _ | noItemTest _ =>
      dsimp only at wanted
      exact absurd wanted (by decide)
  | leftOver | suffixAgain _ | tooDeep _ _ => cases wanted

theorem depth_of_tooDeep (explained : failure.Explained depth dialect)
    (cause : failure.cause = .nestingTooDeep) :
    dialect = .full ∧ depth = maxLevels ∧ ∃ scope,
      nextIn (operandStarts scope) failure.ahead = true ∧
        failure.rules.getLast? = some (.operand scope) := by
  cases explained with
  | tooDeep sum starts => exact ⟨rfl, sum, _, starts, List.getLast?_concat⟩
  | _ => cases cause

end Failure.Explained

/-- An error tells of a failure that is explained by the parentheses open before it. -/
theorem exists_explained {settings : Settings} {tokens : List Token} {error : ParseError}
    (rejected : parseTokens settings tokens = .error error) :
    ∃ failure : Failure, failure.locate tokens = error ∧
      tokens = tokens.take error.position.index ++ failure.ahead ∧
      failure.Explained (opened (tokens.take error.position.index)) settings.mode.dialect := by
  obtain ⟨failure, read, rfl⟩ := parseTokens_eq_error_iff.mp rejected
  obtain ⟨front, split, explained⟩ := readQuery_explained settings.mode.dialect tokens failure
    (readTokens_eq_error_iff.mp read)
  refine ⟨failure, rfl, ?_⟩
  rw [Failure.take_locate split]
  refine ⟨split, ?_⟩
  simpa using explained

/-!
## Consistency
-/

/-- What an error says about a token list is consistent with it and with itself. -/
structure ParseError.Describes (error : ParseError) (tokens : List Token) : Prop
    extends error.PointsInto tokens where
  inside : error.position.index ≤ tokens.length
  ended : error.actual = none ↔ error.position.index = tokens.length
  available : error.fault ≠ .failedModePredicate
  missing : error.fault = .missingExpectedToken →
    error.actual = none ∧ ∃ kind, error.expected = [kind]
  mismatched : error.fault = .mismatchedToken →
    ∃ kind token, error.expected = [kind] ∧ error.actual = some token ∧ token.kind ≠ kind
  outside : error.fault = .mismatchedTokenSet →
    ∀ token, error.actual = some token → token.kind ∉ error.expected
  leftOver : error.fault = .unexpectedExtraToken →
    error.actual.isSome = true ∧ error.rules = ["query"]
  unclosed : .rparen ∈ error.expected →
    ((tokens.take error.position.index).countP fun token => token.kind = .rparen) <
      (tokens.take error.position.index).countP fun token => token.kind = .lparen

/-- Every error describes the tokens that were read. -/
theorem parseTokens_describes {settings : Settings} {tokens : List Token} {error : ParseError}
    (rejected : parseTokens settings tokens = .error error) : error.Describes tokens := by
  obtain ⟨failure, rfl, split, explained⟩ := exists_explained rejected
  have points := Failure.pointsInto_locate ⟨_, split.symm⟩
  have inside : (failure.locate tokens).position.index ≤ tokens.length := Nat.sub_le _ _
  refine ⟨points, inside, ?ended, explained.cause_ne_failedModePredicate, ?missing, ?mismatched,
    ?outside, ?leftOver, ?unclosed⟩
  case ended =>
    rw [points.actual, List.getElem?_eq_none_iff]
    omega
  case missing =>
    intro cause
    obtain ⟨ended, kind, single⟩ := explained.ahead_of_missing cause
    exact ⟨List.head?_eq_none_iff.mpr ended, kind, single⟩
  case mismatched =>
    intro cause
    obtain ⟨kind, token, behind, single, found, other⟩ := explained.ahead_of_mismatched cause
    exact ⟨kind, token, single, congrArg List.head? found, other⟩
  case outside =>
    intro cause token found
    obtain ⟨behind, ahead⟩ := List.head?_eq_some_iff.mp found
    have absent := explained.nextIn_of_mismatchedSet cause
    rw [ahead] at absent
    change token.kind ∉ failure.expected
    simpa [nextIn] using absent
  case leftOver =>
    intro cause
    obtain ⟨filled, rules⟩ := explained.ahead_of_extra cause
    exact ⟨List.isSome_head?.mpr filled, congrArg (List.map Rule.name) rules⟩
  case unclosed =>
    intro wanted
    have deep := explained.open_of_rparen wanted
    rw [opened_eq_countP] at deep
    omega

/-- A group is not closed; the parentheses of the distance in it are. -/
theorem unclosed_group_described :
    let tokens : List Token :=
      [⟨.lparen, "(", 0, 1⟩, ⟨.id, "a", 1, 2⟩, ⟨.star, "*", 3, 4⟩, ⟨.lparen, "(", 4, 5⟩,
        ⟨.integer, "2", 5, 6⟩, ⟨.rparen, ")", 6, 7⟩, ⟨.id, "b", 8, 9⟩]
    ∃ error, parseTokens .standard tokens = .error error ∧ error.expected = [.rparen] ∧
      error.Describes tokens := by
  intro tokens
  obtain ⟨error, rejected, wanted⟩ : ∃ error, parseTokens .standard tokens = .error error ∧
      error.expected = [.rparen] := ⟨_, rfl, rfl⟩
  exact ⟨error, rejected, wanted, parseTokens_describes rejected⟩

/-!
## Nesting
-/

namespace Reading

variable {α β : Type} {tokens ahead : List Token}

/-- A reading fails since operands nest too deep, and these tokens were left when it did. -/
def Overflows (reading : Reading α) (tokens ahead : List Token) : Prop :=
  ∃ rules, reading.run tokens = .error ⟨.nestingTooDeep, [], ahead, rules⟩

namespace Overflows

theorem within {reading : Reading α} (overflows : reading.Overflows tokens ahead) (rule : Rule) :
    (Reading.within rule reading).Overflows tokens ahead := by
  obtain ⟨rules, failed⟩ := overflows
  exact ⟨rule :: rules, run_within_eq_error_iff.mpr ⟨_, failed, rfl⟩⟩

theorem bind {first : Reading α} (overflows : first.Overflows tokens ahead) (next : α → Reading β) :
    (first >>= next).Overflows tokens ahead := by
  obtain ⟨rules, failed⟩ := overflows
  refine ⟨rules, ?_⟩
  rw [run_bind, failed]

theorem behind {first : Reading α} {next : α → Reading β} {value : α} {rest : List Token}
    (accepted : first.run tokens = .ok (value, rest))
    (overflows : (next value).Overflows rest ahead) :
    (first >>= next).Overflows tokens ahead := by
  obtain ⟨rules, failed⟩ := overflows
  refine ⟨rules, ?_⟩
  rw [run_bind, accepted]
  exact failed

end Overflows

end Reading

namespace Grammar

variable {scope : Scope} {ahead : List Token}

theorem operands_overflows {operand : Link → Reading Operand} {tokens : List Token}
    (starts : nextIn (operandStarts scope) tokens = true)
    (overflows : (operand .opening).Overflows tokens ahead) :
    (operands scope operand).Overflows tokens ahead := by
  have conjunct : Overflows (do requireOperand (operandStarts scope); operand .opening)
      tokens ahead :=
    .behind (run_requireOperand_of_next starts) overflows
  exact ((conjunct.within _).bind _).within _

/-- Where operands overflow inside parentheses, the operand that they are overflows. -/
theorem operand_overflows {levels : Nat} {token : Token} {rest : List Token} {link : Link}
    (opens : token.kind = .lparen)
    (overflows : (operands scope (operand levels scope)).Overflows rest ahead) :
    (operand (levels + 1) scope link).Overflows (token :: rest) ahead := by
  have noSign : sign.run (token :: rest) = .ok (.none, token :: rest) := by
    simp [sign, signAhead, opens]
  have noProximity : proximityAhead.run (token :: rest) = .ok (false, token :: rest) := by
    have noWord : mayBeginProximity (token :: rest) = false := by
      cases rest <;> simp [mayBeginProximity, opens, TokenKind.isWord, TokenKind.words]
    simp [proximityAhead, noWord]
  have noField : (testQualifierForm scope).run (token :: rest) = .ok (none, token :: rest) := by
    simp [testQualifierForm, nextIn, opens]
  have shape : testShape? scope (token :: rest) = some .group := by
    simp [testShape?, opens, TokenKind.isWord, TokenKind.words]
  have opened : (take .lparen).run (token :: rest) =
      .ok (⟨token.kind, token.text, List.mem_singleton.mpr opens⟩, rest) := by
    simp [take, opens]
  have grouped : (group scope (operands scope (operand levels scope))).Overflows
      (token :: rest) ahead :=
    (Overflows.behind opened (overflows.bind _)).within _
  have plain : (plainTest scope fun inner => operands inner (operand levels inner)).Overflows
      (token :: rest) ahead := by
    obtain ⟨rules, failed⟩ := grouped.bind fun read => return Body.group read
    refine ⟨rules, ?_⟩
    rw [plainTest, run_look, shape]
    exact failed
  have tested : (test scope fun inner => operands inner (operand levels inner)).Overflows
      (token :: rest) ahead :=
    (Overflows.behind noProximity (.behind noField plain)).within _
  exact (Overflows.behind noSign (tested.bind _)).within _

/-- Behind as many parentheses as there are levels no operand is read. -/
theorem overflows_of_groups {groups rest : List Token}
    (opening : ∀ token ∈ groups, token.kind = .lparen)
    (starts : nextIn (operandStarts scope) rest = true) :
    (operands scope (operand groups.length scope)).Overflows (groups ++ rest) rest := by
  induction groups with
  | nil =>
      have refused : (fail .nestingTooDeep [] : Reading Operand).Overflows rest rest := ⟨[], rfl⟩
      exact operands_overflows starts (refused.within _)
  | cons token groups ih =>
      obtain ⟨opens, inner⟩ := List.forall_mem_cons.mp opening
      have first : nextIn (operandStarts scope) (token :: groups ++ rest) = true := by
        cases scope <;> simp [nextIn, opens, operandStarts, testStarts, signs]
      exact operands_overflows first (operand_overflows opens (ih inner))

end Grammar

theorem ParseError.depth_of_nestingTooDeep {settings : Settings} {tokens : List Token}
    {error : ParseError} (rejected : parseTokens settings tokens = .error error)
    (cause : error.fault = .nestingTooDeep) :
    settings.mode ≠ .cmis ∧
      ((tokens.take error.position.index).countP fun token => token.kind = .lparen) =
        ((tokens.take error.position.index).countP fun token => token.kind = .rparen) + 64 ∧
      ∃ scope token, tokens[error.position.index]? = some token ∧
        token.kind ∈ operandStarts scope ∧ error.rule? = some (Rule.operand scope).name := by
  obtain ⟨failure, rfl, split, explained⟩ := exists_explained rejected
  have actual := (Failure.pointsInto_locate ⟨_, split.symm⟩).actual
  obtain ⟨full, depth, scope, starts, rule⟩ := explained.depth_of_tooDeep cause
  obtain ⟨token, behind, kind, ahead⟩ := nextIn_eq_true_iff.mp starts
  refine ⟨?mode, ?count, scope, token, ?found, kind, ?rule⟩
  case mode =>
    intro restricted
    rw [restricted] at full
    cases full
  case count =>
    rw [opened_eq_countP, maxLevels] at depth
    omega
  case found => exact actual.symm.trans (congrArg List.head? ahead)
  case rule =>
    rw [ParseError.rule?, Failure.locate, List.getLast?_map, rule]
    rfl

/-- Operands nest too deep only behind as many open parentheses as there are levels, where one more
operand can begin, and so not as long as fewer are open. They do nest too deep in as many groups. -/
theorem parseTokens_nesting (settings : Settings) (tokens : List Token) :
    (∀ error, parseTokens settings tokens = .error error → error.fault = .nestingTooDeep →
      settings.mode ≠ .cmis ∧
      ((tokens.take error.position.index).countP fun token => token.kind = .lparen) =
        ((tokens.take error.position.index).countP fun token => token.kind = .rparen) + 64 ∧
      ∃ scope token, tokens[error.position.index]? = some token ∧
        token.kind ∈ operandStarts scope ∧ error.rule? = some (Rule.operand scope).name) ∧
    ((∀ front, front <+: tokens → (front.countP fun token => token.kind = .lparen) <
        64 + front.countP fun token => token.kind = .rparen) →
      ∀ error, parseTokens settings tokens = .error error → error.fault ≠ .nestingTooDeep) ∧
    ∀ groups rest, settings.mode ≠ .cmis → tokens = groups ++ rest → groups.length = 64 →
      (∀ token ∈ groups, token.kind = .lparen) → nextIn (operandStarts .query) rest = true →
      ∃ error, parseTokens settings tokens = .error error ∧ error.fault = .nestingTooDeep ∧
        error.position.index = 64 := by
  refine ⟨fun error => ParseError.depth_of_nestingTooDeep, ?shallow, ?deep⟩
  case shallow =>
    intro shallow error rejected cause
    have bound := shallow _ (List.take_prefix error.position.index tokens)
    have count := (ParseError.depth_of_nestingTooDeep rejected cause).2.1
    omega
  case deep =>
    intro groups rest full split count opening starts
    subst split
    have overflows := overflows_of_groups opening starts
    rw [count] at overflows
    obtain ⟨rules, failed⟩ := (overflows.bind fun read => do atEnd; return read).within .query
    have dialect : settings.mode.dialect = .full := by
      cases mode : settings.mode with
      | cmis => exact absurd mode full
      | defaultConjunction | defaultDisjunction => rfl
    have read : (readQuery settings.mode.dialect).run (groups ++ rest) =
        .error ⟨.nestingTooDeep, [], rest, rules⟩ := by
      rw [dialect]
      exact failed
    refine ⟨_, parseTokens_eq_error_iff.mpr ⟨_, readTokens_eq_error_iff.mpr read, rfl⟩, rfl, ?_⟩
    simp [Failure.locate, count]

/-- A word in sixty-four groups, and a group that is not closed. -/
theorem nesting_of_sixty_four_groups :
    let opening : Token := ⟨.lparen, "(", 0, 1⟩
    let tokens := List.replicate 64 opening ++ [⟨.id, "a", 64, 65⟩]
    (∃ error, parseTokens .standard tokens = .error error ∧ error.fault = .nestingTooDeep ∧
      error.position.index = 64 ∧ Settings.standard.mode ≠ .cmis ∧
      ((tokens.take 64).countP fun token => token.kind = .lparen) =
        ((tokens.take 64).countP fun token => token.kind = .rparen) + 64 ∧
      ∃ scope token, tokens[64]? = some token ∧ token.kind ∈ operandStarts scope ∧
        error.rule? = some (Rule.operand scope).name) ∧
    ∃ error, parseTokens .standard [opening] = .error error ∧ error.fault ≠ .nestingTooDeep := by
  intro opening tokens
  constructor
  · obtain ⟨deep, _, groups⟩ := parseTokens_nesting .standard tokens
    obtain ⟨error, rejected, cause, index⟩ := groups (List.replicate 64 opening) _ (by decide) rfl
      List.length_replicate (fun token member => (List.eq_of_mem_replicate member) ▸ rfl) rfl
    have counted := deep error rejected cause
    rw [index] at counted
    exact ⟨error, rejected, cause, index, counted⟩
  · obtain ⟨error, rejected⟩ : ∃ error, parseTokens .standard [opening] = .error error := ⟨_, rfl⟩
    refine ⟨error, rejected, (parseTokens_nesting .standard [opening]).2.1 ?_ error rejected⟩
    intro front inside
    have length := inside.length_le
    have few := List.countP_le_length (l := front) (p := fun token => token.kind = .lparen)
    rw [List.length_singleton] at length
    omega

/-!
## Expected kinds
-/

/-- A word that is no bound, before two points, which leave nothing to read. -/
def Token.SpoiltByPoints (token : Token) (behind : List Token) : Prop :=
  token.kind ∈ TokenKind.words ∧ token.kind ∉ TokenKind.rangeBounds ∧ nextIs .dotDot behind = true

/-- A token that could begin something, were it not for what is behind it: a word that two points
leave nothing to read of; the mark or the namespace of a field that goes on as no field; a divider
before the item that it divides from nothing. -/
inductive ParseError.SpoiltStart (error : ParseError) (token : Token) (behind : List Token) :
    Dialect → Prop where
  | word :
      error.fault = .noViableAlternative → token.SpoiltByPoints behind →
      SpoiltStart error token behind .full
  | field :
      error.fault = .noViableAlternative → error.rule? = some (Rule.test .query).name →
      token.kind ∈ [TokenKind.atSign, .uri] →
      fieldQualifierForm.run (token :: behind) = .ok (none, token :: behind) →
      SpoiltStart error token behind .full
  | divider :
      error.fault = .emptyRequiredRepetition → token.kind = .or →
      nextIn Cmis.itemStarts behind = true → SpoiltStart error token behind .cmis

theorem spoilt_or_of_testShape? {scope : Scope} {token : Token} {behind : List Token}
    (shape : testShape? scope (token :: behind) = none) (starts : token.kind ∈ testStarts scope) :
    token.SpoiltByPoints behind ∨ scope = .query ∧ token.kind ∈ [TokenKind.atSign, .uri] := by
  rw [Token.SpoiltByPoints]
  simp only [testShape?] at shape
  generalize nextIs .dotDot behind = dots, token.kind = kind at shape starts ⊢
  revert shape starts
  cases scope <;> cases dots <;> cases kind <;> decide

theorem spoilt_of_valueShape? {token : Token} {behind : List Token}
    (shape : valueShape? (token :: behind) = none) (starts : token.kind ∈ valueStarts) :
    token.SpoiltByPoints behind := by
  rw [Token.SpoiltByPoints]
  simp only [valueShape?] at shape
  generalize nextIs .dotDot behind = dots, token.kind = kind at shape starts ⊢
  revert shape starts
  cases dots <;> cases kind <;> decide

theorem or_of_divides {token : Token} {behind : List Token}
    (divides : Cmis.dividerAhead (token :: behind) = true) (starts : token.kind ∈ Cmis.itemStarts) :
    token.kind = .or ∧ nextIn Cmis.itemStarts behind = true := by
  have noBar : token.kind ≠ .barBar := fun same => absurd (same ▸ starts) (by decide)
  simpa [Cmis.dividerAhead, noBar] using divides

theorem nextIn_cons_eq_false_iff {kinds : List TokenKind} {token : Token} {rest : List Token} :
    nextIn kinds (token :: rest) = false ↔ token.kind ∉ kinds := by
  simp [nextIn]

theorem Failure.rule?_locate (failure : Failure) (tokens : List Token) :
    (failure.locate tokens).rule? = failure.rules.getLast?.map Rule.name := by
  rw [ParseError.rule?, locate, List.getLast?_map]

namespace Failure.Explained

variable {depth : Int} {dialect : Dialect} {failure : Failure} {tokens behind : List Token}
  {token : Token}

/-- A failure names the kind of the token that it rejects only where that token is spoilt. -/
theorem spoiltStart (explained : failure.Explained depth dialect)
    (found : failure.ahead = token :: behind) (wanted : token.kind ∈ failure.expected) :
    (failure.locate tokens).SpoiltStart token behind dialect := by
  cases explained with
  | missing _ => cases found
  | mismatched other _ =>
      cases found
      exact absurd (List.mem_singleton.mp wanted) other
  | outside absent _ | noOperand absent | noItemTest absent =>
      cases found
      exact absurd wanted (nextIn_cons_eq_false_iff.mp absent)
  | noField closing =>
      cases found
      have kind : token.kind = .rparen := beq_iff_eq.mp closing
      rw [kind] at wanted
      dsimp only at wanted
      exact absurd wanted (by decide)
  | leftOver | suffixAgain _ | tooDeep _ _ => cases wanted
  | @noTest scope _ outer shape looked =>
      cases found
      rcases spoilt_or_of_testShape? shape wanted with spoilt | ⟨rfl, mark⟩
      · exact .word rfl spoilt
      · have starts : nextIn [.id, .atSign, .uri] (token :: behind) = true :=
          nextIn_eq_true_iff.mpr ⟨token, behind, List.mem_cons_of_mem _ mark, rfl⟩
        rw [testQualifierForm, run_look, if_pos ⟨rfl, starts⟩] at looked
        refine .field rfl ?_ mark looked
        rw [rule?_locate, List.getLast?_concat]
        rfl
  | noValue shape =>
      cases found
      exact .word rfl (spoilt_of_valueShape? shape wanted)
  | noItem absent =>
      cases found
      obtain ⟨kind, item⟩ := or_of_divides (absent.resolve_left (List.cons_ne_nil _ _)) wanted
      exact .divider rfl kind item

theorem wanted_of_spoiltStart (explained : failure.Explained depth dialect)
    (found : failure.ahead = token :: behind)
    (spoilt : (failure.locate tokens).SpoiltStart token behind dialect) :
    token.kind ∈ failure.expected := by
  cases spoilt with
  | word cause spoilt =>
      change failure.cause = _ at cause
      have word := spoilt.1
      cases explained with
      | @noTest scope _ _ _ _ =>
          have among : TokenKind.words ⊆ testStarts scope := by cases scope <;> decide
          exact among word
      | noValue _ =>
          cases found
          have among : TokenKind.words ⊆ valueStarts := by decide
          exact among word
      | suffixAgain tilde =>
          cases found
          have kind : token.kind = .tilde := beq_iff_eq.mp tilde
          rw [kind] at word
          exact absurd word (by decide)
      | _ => cases cause
  | field cause rule mark _ =>
      change failure.cause = _ at cause
      rw [rule?_locate] at rule
      cases explained with
      | @noTest scope _ _ _ _ =>
          rw [List.getLast?_concat] at rule
          cases Rule.name_injective (Option.some.inj rule)
          have among : [TokenKind.atSign, .uri] ⊆ testStarts .query := by decide
          exact among mark
      | noValue _ =>
          rw [List.getLast?_concat] at rule
          cases Rule.name_injective (Option.some.inj rule)
      | suffixAgain tilde =>
          cases found
          have kind : token.kind = .tilde := beq_iff_eq.mp tilde
          rw [kind] at mark
          exact absurd mark (by decide)
      | _ => cases cause
  | divider cause kind _ =>
      change failure.cause = _ at cause
      cases explained with
      | noItem _ =>
          rw [kind]
          dsimp only
          decide
      | _ => cases cause

end Failure.Explained

/-- An error names the kind of the token that it rejects exactly where that token is spoilt. -/
theorem parseTokens_expected_iff {settings : Settings} {tokens : List Token} {error : ParseError}
    (rejected : parseTokens settings tokens = .error error) {token : Token}
    (found : error.actual = some token) :
    token.kind ∈ error.expected ↔
      error.SpoiltStart token (tokens.drop (error.position.index + 1)) settings.mode.dialect := by
  obtain ⟨failure, rfl, split, explained⟩ := exists_explained rejected
  obtain ⟨behind, ahead⟩ := List.head?_eq_some_iff.mp found
  have left : tokens.drop (failure.locate tokens).position.index = failure.ahead :=
    List.append_cancel_left ((List.take_append_drop _ _).trans split)
  have rest : tokens.drop ((failure.locate tokens).position.index + 1) = behind := by
    rw [← List.drop_drop, left, ahead]
    rfl
  rw [rest]
  exact ⟨explained.spoiltStart ahead, explained.wanted_of_spoiltStart ahead⟩

/-- A word with a wildcard is no bound, so two points behind it spoil it. -/
theorem expected_of_wild_range :
    let tokens : List Token :=
      [⟨.wildWord, "te?t", 0, 4⟩, ⟨.dotDot, "..", 4, 6⟩, ⟨.id, "x", 6, 7⟩]
    ∃ error, parseTokens .standard tokens = .error error ∧
      error.actual = some ⟨.wildWord, "te?t", 0, 4⟩ ∧ .wildWord ∈ error.expected ∧
      error.SpoiltStart ⟨.wildWord, "te?t", 0, 4⟩ (tokens.drop 1) .full := by
  intro tokens
  obtain ⟨error, rejected, found, index, wanted⟩ : ∃ error,
      parseTokens .standard tokens = .error error ∧
        error.actual = some ⟨.wildWord, "te?t", 0, 4⟩ ∧ error.position.index = 0 ∧
        .wildWord ∈ error.expected := ⟨_, rfl, rfl, rfl, by decide⟩
  have spoilt := (parseTokens_expected_iff rejected found).mp wanted
  rw [index] at spoilt
  exact ⟨error, rejected, found, wanted, spoilt⟩

/-- The mark of a field is rejected and named among the kinds that would have been accepted. -/
theorem mark_expected_and_rejected :
    let tokens : List Token := [⟨.atSign, "@", 0, 1⟩]
    ∃ error, parseTokens .standard tokens = .error error ∧
      error.actual = some ⟨.atSign, "@", 0, 1⟩ ∧ .atSign ∈ error.expected := by
  exact ⟨_, rfl, rfl, by decide⟩

end SearchQuery
