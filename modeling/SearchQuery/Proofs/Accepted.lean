import SearchQuery.Parse
import SearchQuery.Proofs.Accepted.Tests
set_option autoImplicit false

/-!
# Accepted queries are written forms

What is read as operands, and at last as a whole query in either dialect, is written with the tokens
that are taken. That the levels of nesting and the limits of the loops are finite plays no part: a
reading that stops early has still taken what it yields.
-/

namespace SearchQuery.Grammar

open Reading

/-!
## Operands
-/

theorem link_of_linkAhead? {scope : Scope} {token : Token} {rest : List Token} {link : Link}
    (ahead : linkAhead? scope (token :: rest) = some link) :
    link = .adjacent ∨ token.kind ∈ link.kinds := by
  simp only [linkAhead?] at ahead
  grind [Link.kinds]

/-- Taking the operator of a link that is ahead takes what the link is written with. -/
theorem takeLink_written {scope : Scope} {tokens rest : List Token} {link : Link} {result : Unit}
    (ahead : linkAhead? scope tokens = some link)
    (accepted : (takeLink link).run tokens = .ok (result, rest)) :
    ∃ taken, tokens = taken ++ rest ∧ link.Written taken := by
  cases tokens with
  | nil => cases ahead
  | cons token after =>
      have kind := link_of_linkAhead? ahead
      cases link with
      | opening => simp [Link.kinds] at kind
      | adjacent =>
          obtain ⟨_, rfl⟩ := run_pure_eq_ok_iff.mp accepted
          exact ⟨[], rfl, .adjacent⟩
      | and | or =>
          obtain ⟨_, split⟩ := run_advance_eq_ok_iff.mp accepted
          cases split
          exact ⟨[token], rfl, .operator (kind.resolve_left (by simp))⟩

theorem sign_written : sign.Writes Sign.Written := by
  intro tokens rest read accepted
  rw [sign, run_look] at accepted
  cases tokens with
  | nil =>
      obtain ⟨rfl, rfl⟩ := run_pure_eq_ok_iff.mp accepted
      exact ⟨[], rfl, .absent⟩
  | cons token after =>
      split at accepted
      · obtain ⟨rfl, rfl⟩ := run_pure_eq_ok_iff.mp accepted
        exact ⟨[], rfl, .absent⟩
      · next written =>
          simp only [run_bind_eq_ok_iff, run_advance_eq_ok_iff, run_pure_eq_ok_iff] at accepted
          obtain ⟨_, _, ⟨_, split⟩, rfl, rfl⟩ := accepted
          cases split
          refine ⟨[token], rfl, .present ?_⟩
          unfold signAhead at *
          grind [Sign.kinds]

/-- An operand and its link, as one reading yields them. -/
abbrev WritesOperand (scope : Scope) (operand : Link → Reading Operand) : Prop :=
  ∀ link, (operand link).Writes fun read taken =>
    read.link = link ∧ Part.Written scope (.operand read) taken

theorem run_requireOperand_eq_ok_iff {starts : List TokenKind} {tokens rest : List Token}
    {result : Unit} :
    (requireOperand starts).run tokens = .ok (result, rest) ↔
      tokens = rest ∧ nextIn starts tokens = true := by
  rw [requireOperand, run_look]
  split
  · next starts => simp [starts]
  · next absent => simp [absent]

theorem requireOperand_accepted {starts : List TokenKind} {tokens rest : List Token} {result : Unit}
    (accepted : (requireOperand starts).run tokens = .ok (result, rest)) : tokens = rest :=
  (run_requireOperand_eq_ok_iff.mp accepted).1

/-- Whether an operand begins is looked at before it is read, except behind an `AND`. -/
theorem conjunct_accepted {starts : List TokenKind} {link : Link} {operand : Reading Operand}
    {tokens rest : List Token} {read : Operand}
    (accepted : Reading.run (do
      if link ≠ .and then
        requireOperand starts
      operand) tokens = .ok (read, rest)) : operand.run tokens = .ok (read, rest) := by
  split at accepted
  · rw [run_bind_eq_ok_iff] at accepted
    obtain ⟨_, _, required, accepted⟩ := accepted
    obtain rfl := requireOperand_accepted required
    exact accepted
  · exact accepted

theorem run_laterOperands_of_unlinked {scope : Scope} {operand : Link → Reading Operand}
    {tokens : List Token} (unlinked : linkAhead? scope tokens = none) (limit : Nat) :
    (laterOperands scope operand limit).run tokens = .ok ([], tokens) := by
  cases limit with
  | zero => rfl
  | succ limit =>
      rw [laterOperands, run_look, unlinked]
      rfl

theorem run_laterOperands_of_ahead {scope : Scope} {operand : Link → Reading Operand}
    {link : Link} {tokens : List Token} (ahead : linkAhead? scope tokens = some link)
    (limit : Nat) :
    (laterOperands scope operand (limit + 1)).run tokens =
      Reading.run (do
        takeLink link
        let next ← within (.conjunction scope) do
          if link ≠ .and then
            requireOperand (operandStarts scope)
          operand link
        let rest ← laterOperands scope operand limit
        return next :: rest) tokens := by
  rw [laterOperands, run_look, ahead]

/-- One round of the loop: an operator or none, an operand, and more operands behind it. -/
theorem exists_of_run_laterOperands {scope : Scope} {operand : Link → Reading Operand}
    {link : Link} {limit : Nat} {tokens rest : List Token} {read : List Operand}
    (ahead : linkAhead? scope tokens = some link)
    (accepted : (laterOperands scope operand (limit + 1)).run tokens = .ok (read, rest)) :
    ∃ operator next between first later, tokens = operator ++ next ∧ link.Written operator ∧
      (takeLink link).run tokens = .ok ((), next) ∧
      (operand link).run next = .ok (first, between) ∧
      (laterOperands scope operand limit).run between = .ok (later, rest) ∧
      read = first :: later := by
  rw [run_laterOperands_of_ahead ahead] at accepted
  simp only [run_bind_eq_ok_iff, run_within_eq_ok_iff, run_pure_eq_ok_iff] at accepted
  obtain ⟨_, next, linked, first, between, firstRead, later, _, laterRead, rfl, rfl⟩ := accepted
  obtain ⟨operator, split, linkWritten⟩ := takeLink_written ahead linked
  exact ⟨operator, next, between, first, later, split, linkWritten, linked,
    conjunct_accepted firstRead, laterRead, rfl⟩

theorem laterOperands_written {scope : Scope} {operand : Link → Reading Operand}
    (single : WritesOperand scope operand) {limit : Nat} :
    (laterOperands scope operand limit).Writes fun read => Part.Written scope (.later read) := by
  induction limit with
  | zero =>
      intro tokens rest read accepted
      obtain ⟨rfl, rfl⟩ := run_pure_eq_ok_iff.mp accepted
      exact ⟨[], rfl, .done⟩
  | succ limit ih =>
      intro tokens rest read accepted
      cases ahead : linkAhead? scope tokens with
      | none =>
          rw [run_laterOperands_of_unlinked ahead] at accepted
          cases accepted
          exact ⟨[], rfl, .done⟩
      | some link =>
          obtain ⟨operator, _, _, next, later, rfl, linkWritten, _, nextRead, laterRead, rfl⟩ :=
            exists_of_run_laterOperands ahead accepted
          obtain ⟨nextTokens, rfl, rfl, nextWritten⟩ := single link nextRead
          obtain ⟨laterTokens, rfl, laterWritten⟩ := ih laterRead
          exact ⟨operator ++ nextTokens ++ laterTokens, by simp,
            .later linkWritten nextWritten laterWritten⟩

theorem run_requireOperand_of_next {starts : List TokenKind} {tokens : List Token}
    (next : nextIn starts tokens = true) : (requireOperand starts).run tokens = .ok ((), tokens) := by
  rw [requireOperand, run_look, if_pos next]
  rfl

/-- One round of the loop: a link is ahead, an operand behind it, and more operands behind that. -/
theorem run_laterOperands_of_link {scope : Scope} {operand : Link → Reading Operand} {link : Link}
    {first : Operand} {later : List Operand} {tokens next between rest : List Token} {limit : Nat}
    (ahead : linkAhead? scope tokens = some link)
    (linked : (takeLink link).run tokens = .ok ((), next))
    (starts : nextIn (operandStarts scope) next = true)
    (firstRead : (operand link).run next = .ok (first, between))
    (laterRead : (laterOperands scope operand limit).run between = .ok (later, rest)) :
    (laterOperands scope operand (limit + 1)).run tokens = .ok (first :: later, rest) := by
  rw [run_laterOperands_of_ahead ahead]
  simp only [run_bind_eq_ok_iff, run_within_eq_ok_iff, run_pure_eq_ok_iff]
  refine ⟨(), next, linked, first, between, ?_, later, rest, laterRead, rfl, rfl⟩
  split
  · rw [run_bind_eq_ok_iff]
    exact ⟨(), next, run_requireOperand_of_next starts, firstRead⟩
  · exact firstRead

theorem operands_written {scope : Scope} {operand : Link → Reading Operand}
    (single : WritesOperand scope operand) : WritesOperands scope (operands scope operand) := by
  intro tokens rest read accepted
  simp only [operands, run_within_eq_ok_iff, run_bind_eq_ok_iff, run_pure_eq_ok_iff,
    run_look] at accepted
  obtain ⟨first, _, ⟨_, _, required, firstRead⟩, later, _, laterRead, rfl, rfl⟩ := accepted
  obtain rfl := requireOperand_accepted required
  obtain ⟨firstTokens, rfl, opens, firstWritten⟩ := single .opening firstRead
  obtain ⟨laterTokens, rfl, laterWritten⟩ := laterOperands_written single laterRead
  exact ⟨firstTokens ++ laterTokens, by simp, .operands opens firstWritten laterWritten⟩

theorem operand_written {levels : Nat} {scope : Scope} :
    WritesOperand scope (operand levels scope) := by
  induction levels generalizing scope with
  | zero =>
      intro link tokens rest read accepted
      rw [operand, run_within_eq_ok_iff] at accepted
      exact absurd accepted run_fail_ne_ok
  | succ levels ih =>
      intro link tokens rest read accepted
      simp only [operand, run_within_eq_ok_iff, run_bind_eq_ok_iff, run_pure_eq_ok_iff] at accepted
      obtain ⟨sign, _, signRead, body, _, bodyRead, boost, _, boostRead, rfl, rfl⟩ := accepted
      obtain ⟨front, rfl, signWritten⟩ := sign_written signRead
      obtain ⟨tokens, rfl, bodyWritten⟩ := test_written (fun _ => operands_written ih) bodyRead
      obtain ⟨suffix, rfl, boostWritten⟩ := boost_written boostRead
      exact ⟨front ++ tokens ++ suffix, by simp, rfl,
        .operand signWritten bodyWritten boostWritten⟩

theorem query_written {tokens rest : List Token} {read : List Operand}
    (accepted : query.run tokens = .ok (read, rest)) :
    rest = [] ∧ Part.Written .query (.operands read) tokens := by
  simp only [query, run_within_eq_ok_iff, run_bind_eq_ok_iff, run_atEnd_eq_ok_iff,
    run_pure_eq_ok_iff] at accepted
  obtain ⟨read, _, operandsRead, _, _, ⟨rfl, rfl⟩, rfl, rfl⟩ := accepted
  obtain ⟨taken, rfl, written⟩ := operands_written operand_written operandsRead
  exact ⟨rfl, by simpa using written⟩

end SearchQuery.Grammar

namespace SearchQuery

inductive Test.Plain : Test → Prop where
  | term {word : TermWord} : Plain (.term word none none)
  | phrase {text : PhraseText} : Plain (.phrase text none none)

/-- The only operands of the restricted language: a plain test, with a minus or without, and no
boost. -/
inductive Operand.Plain : Operand → Prop where
  | default {link : Link} {test : Test} : test.Plain → Plain (.mk link .none (.test test) none)
  | exclude {link : Link} {test : Test} : test.Plain → Plain (.mk link .exclude (.test test) none)

end SearchQuery

namespace SearchQuery.Grammar.Cmis

open Reading

/-!
## The restricted language
-/

theorem test_written : test.Writes fun read taken => read.Plain ∧ read.Written .query taken := by
  intro tokens rest read accepted
  simp only [test, run_within_eq_ok_iff, run_look] at accepted
  split at accepted
  · simp only [run_bind_eq_ok_iff, run_takeOneOf_eq_ok_iff, run_pure_eq_ok_iff] at accepted
    obtain ⟨word, _, ⟨token, wordSame, rfl⟩, rfl, rfl⟩ := accepted
    exact ⟨[token], rfl, .term, .term .absent wordSame .absent⟩
  · split at accepted
    · simp only [run_bind_eq_ok_iff, run_take_eq_ok_iff, run_pure_eq_ok_iff] at accepted
      obtain ⟨text, _, ⟨token, textSame, rfl⟩, rfl, rfl⟩ := accepted
      exact ⟨[token], rfl, .phrase, .phrase .absent textSame .absent⟩
    · exact absurd accepted run_fail_ne_ok

theorem item_written (link : Link) :
    (item link).Writes fun read taken =>
      read.Plain ∧ read.link = link ∧ Part.Written .query (.operand read) taken := by
  intro tokens rest read accepted
  simp only [item, run_within_eq_ok_iff, run_bind_eq_ok_iff, run_pure_eq_ok_iff,
    run_look] at accepted
  obtain ⟨sign, _, signRead, test, _, testRead, rfl, rfl⟩ := accepted
  obtain ⟨taken, rfl, plain, written⟩ := test_written testRead
  split at signRead
  · next ahead =>
      obtain ⟨minus, after, minusKind, rfl⟩ := nextIs_eq_true_iff.mp ahead
      simp only [run_bind_eq_ok_iff, run_advance_eq_ok_iff, run_pure_eq_ok_iff] at signRead
      obtain ⟨_, _, ⟨_, split⟩, rfl, rfl⟩ := signRead
      cases split
      exact ⟨[minus] ++ taken ++ [], by simp, .exclude plain, rfl,
        .operand (.present (by simp [Sign.kinds, minusKind])) (.test written) .absent⟩
  · obtain ⟨rfl, rfl⟩ := run_pure_eq_ok_iff.mp signRead
    exact ⟨[] ++ taken ++ [], by simp, .default plain, rfl,
      .operand .absent (.test written) .absent⟩

theorem requireItem_accepted {tokens rest : List Token} {result : Unit}
    (accepted : requireItem.run tokens = .ok (result, rest)) : tokens = rest := by
  rw [requireItem, run_look] at accepted
  split at accepted
  · exact absurd accepted run_fail_ne_ok
  · exact (run_pure_eq_ok_iff.mp accepted).2

/-- Items are adjacent unless a divider stands between them. -/
theorem takeLink_written {tokens rest : List Token} {link : Link} {result : Unit}
    (ahead : linkAhead? tokens = some link)
    (accepted : (takeLink link).run tokens = .ok (result, rest)) :
    ∃ taken, tokens = taken ++ rest ∧ link.Written taken := by
  unfold linkAhead? at ahead
  split at ahead
  · next divides =>
      cases ahead
      obtain ⟨token, rfl⟩ := run_advance_eq_ok_iff.mp accepted
      refine ⟨[token], rfl, .operator ?_⟩
      simp only [dividerAhead, Bool.or_eq_true, Bool.and_eq_true, beq_iff_eq] at divides
      rcases divides with kind | ⟨kind, _⟩ <;> simp [Link.kinds, kind]
  · split at ahead
    · cases ahead
    · cases ahead
      obtain ⟨_, rfl⟩ := run_pure_eq_ok_iff.mp accepted
      exact ⟨[], rfl, .adjacent⟩

theorem laterItems_written {limit : Nat} :
    (laterItems limit).Writes fun read taken =>
      (∀ item ∈ read, item.Plain) ∧ Part.Written .query (.later read) taken := by
  induction limit with
  | zero =>
      intro tokens rest read accepted
      obtain ⟨rfl, rfl⟩ := run_pure_eq_ok_iff.mp accepted
      exact ⟨[], rfl, by simp, .done⟩
  | succ limit ih =>
      intro tokens rest read accepted
      simp only [laterItems, run_look] at accepted
      cases ahead : linkAhead? tokens with
      | none =>
          rw [ahead] at accepted
          obtain ⟨rfl, rfl⟩ := run_pure_eq_ok_iff.mp accepted
          exact ⟨[], rfl, by simp, .done⟩
      | some link =>
          simp only [ahead, run_bind_eq_ok_iff, run_within_eq_ok_iff,
            run_pure_eq_ok_iff] at accepted
          obtain ⟨_, _, linked, next, _, ⟨_, _, required, nextRead⟩, later, _, laterRead, rfl,
            rfl⟩ := accepted
          obtain rfl := requireItem_accepted required
          obtain ⟨operator, rfl, linkWritten⟩ := takeLink_written ahead linked
          obtain ⟨nextTokens, rfl, nextPlain, rfl, nextWritten⟩ := item_written link nextRead
          obtain ⟨laterTokens, rfl, laterPlain, laterWritten⟩ := ih laterRead
          exact ⟨operator ++ nextTokens ++ laterTokens, by simp,
            List.forall_mem_cons.mpr ⟨nextPlain, laterPlain⟩,
            .later linkWritten nextWritten laterWritten⟩

theorem query_written {tokens rest : List Token} {read : List Operand}
    (accepted : query.run tokens = .ok (read, rest)) :
    rest = [] ∧ (∀ item ∈ read, item.Plain) ∧ Part.Written .query (.operands read) tokens := by
  simp only [query, items, run_within_eq_ok_iff, run_bind_eq_ok_iff, run_atEnd_eq_ok_iff,
    run_pure_eq_ok_iff, run_look] at accepted
  obtain ⟨_, _, ⟨first, _, ⟨_, _, required, firstRead⟩, later, _, laterRead, rfl, rfl⟩, _, _,
    ⟨rfl, rfl⟩, rfl, rfl⟩ := accepted
  obtain rfl := requireItem_accepted required
  obtain ⟨firstTokens, rfl, firstPlain, opens, firstWritten⟩ := item_written .opening firstRead
  obtain ⟨laterTokens, rfl, laterPlain, laterWritten⟩ := laterItems_written laterRead
  exact ⟨rfl, List.forall_mem_cons.mpr ⟨firstPlain, laterPlain⟩,
    by simpa using Part.Written.operands opens firstWritten laterWritten⟩

end SearchQuery.Grammar.Cmis

namespace SearchQuery

/-!
## Token lists
-/

/-- A token list that is accepted in either dialect is a written form of its operands. -/
theorem readTokens_written {mode : Mode} {tokens : List Token} {operands : List Operand}
    (accepted : readTokens mode tokens = .ok operands) :
    Part.Written .query (.operands operands) tokens := by
  rw [readTokens, readTokensAs, if_pos rfl] at accepted
  split at accepted
  · next read rest run =>
      cases accepted
      cases mode with
      | cmis => exact (Grammar.Cmis.query_written run).2.2
      | defaultConjunction | defaultDisjunction => exact (Grammar.query_written run).2
  · cases accepted

theorem readTokens_plain {tokens : List Token} {operands : List Operand}
    (accepted : readTokens .cmis tokens = .ok operands) : ∀ item ∈ operands, item.Plain := by
  rw [readTokens, readTokensAs, if_pos rfl] at accepted
  split at accepted
  · next read rest run =>
      cases accepted
      exact (Grammar.Cmis.query_written run).2.1
  · cases accepted

/-- A token list has a tree exactly if its operands are read, and the tree is theirs. -/
theorem parseTokens_eq_ok_iff {settings : Settings} {tokens : List Token} {tree : Node} :
    parseTokens settings tokens = .ok tree ↔
      ∃ operands, readTokens settings.mode tokens = .ok operands ∧
        queryTree settings operands = tree := by
  rw [parseTokens, parseTokensAs, ← readTokens]
  cases readTokens settings.mode tokens with
  | ok operands => simp [treeOrError]
  | error failure => simp [treeOrError]

theorem parseTokens_eq_error_iff {settings : Settings} {tokens : List Token} {error : ParseError} :
    parseTokens settings tokens = .error error ↔
      ∃ failure, readTokens settings.mode tokens = .error failure ∧
        failure.locate tokens = error := by
  rw [parseTokens, parseTokensAs, ← readTokens]
  cases readTokens settings.mode tokens with
  | ok operands => simp [treeOrError]
  | error failure => simp [treeOrError]

theorem readTokens_eq_ok_iff {mode : Mode} {tokens : List Token} {operands : List Operand} :
    readTokens mode tokens = .ok operands ↔
      ∃ rest, (readQuery mode.dialect).run tokens = .ok (operands, rest) := by
  rw [readTokens, readTokensAs, if_pos rfl]
  cases (readQuery mode.dialect).run tokens with
  | ok read => simp [Prod.ext_iff]
  | error failure => simp

theorem readTokens_eq_error_iff {mode : Mode} {tokens : List Token} {failure : Failure} :
    readTokens mode tokens = .error failure ↔
      (readQuery mode.dialect).run tokens = .error failure := by
  rw [readTokens, readTokensAs, if_pos rfl]
  cases (readQuery mode.dialect).run tokens <;> simp

end SearchQuery
