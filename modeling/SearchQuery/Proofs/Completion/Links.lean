import SearchQuery.Proofs.Completion.Swaps
set_option autoImplicit false

/-!
# Other tokens behind operands

An operand, and a list of operands, may be read again before other tokens. What begins a list of
later operands tells whether the operand before it is carried on, and an operator before them is
found again.
-/

namespace SearchQuery

open Reading Grammar

/-- An operand is read whatever comes behind it, as long as that does not carry it on. -/
def Swaps (operand : Link → Reading Operand) : Prop :=
  ∀ ⦃link : Link⦄ ⦃front old new : List Token⦄ ⦃read : Operand⦄, SwappedBehind old new →
    (operand link).run (front ++ old) = .ok (read, old) →
    (operand link).run (front ++ new) = .ok (read, new)

section

variable {scope : Scope} {old new : List Token}

namespace Grammar

theorem linkAhead?_append_congr {front : List Token} (filled : front ≠ [])
    (same : ∀ token, front = [token] → token.kind ∈ [TokenKind.and, .or] →
      nextIn (operandStarts scope) old = nextIn (operandStarts scope) new) :
    linkAhead? scope (front ++ old) = linkAhead? scope (front ++ new) := by
  rcases front with _ | ⟨token, _ | ⟨next, front⟩⟩
  · exact absurd rfl filled
  · simp only [List.cons_append, List.nil_append, linkAhead?]
    by_cases keyword : token.kind ∈ [TokenKind.and, .or]
    · rw [same token rfl keyword]
    · have apart : token.kind ≠ .and ∧ token.kind ≠ .or := by simpa using keyword
      simp only [apart, false_and, if_false]
  · rfl

/-- The kinds that later operands begin with. -/
def laterStarts (scope : Scope) : List TokenKind :=
  [.ampAmp, .and, .barBar, .or] ++ operandStarts scope

theorem laterStarts_apart (scope : Scope) :
    ∀ kind ∈ laterStarts scope, kind ∉ [TokenKind.dotDot, .colon, .caret] := by
  cases scope <;> decide

theorem nextIn_laterStarts_of_linkAhead? {tokens : List Token} {link : Link}
    (ahead : linkAhead? scope tokens = some link) :
    nextIn (laterStarts scope) tokens = true := by
  cases tokens with
  | nil => cases ahead
  | cons token rest =>
      simp only [linkAhead?] at ahead
      simp only [nextIn, laterStarts, List.contains_eq_mem, decide_eq_true_eq, List.mem_append]
      grind

theorem nextIn_eq_false_of_unlinked {tokens : List Token}
    (unlinked : linkAhead? scope tokens = none) : nextIn (operandStarts scope) tokens = false := by
  cases tokens with
  | nil => rfl
  | cons token rest =>
      simp only [linkAhead?] at unlinked
      simp only [nextIn, List.contains_eq_mem, decide_eq_false_iff_not]
      grind

/-- A keyword that is taken for a word has no operand behind it. -/
theorem nextIn_eq_false_of_adjacent {token : Token} {rest : List Token}
    (keyword : token.kind ∈ [TokenKind.and, .or])
    (ahead : linkAhead? scope (token :: rest) = some .adjacent) :
    nextIn (operandStarts scope) rest = false := by
  cases starts : nextIn (operandStarts scope) rest with
  | false => rfl
  | true =>
      simp only [List.mem_cons, List.not_mem_nil, or_false] at keyword
      rcases keyword with kind | kind <;> simp [linkAhead?, kind, starts] at ahead

/-- Operands are read for as long as there is one to read. -/
theorem linkAhead?_eq_none_of_run_laterOperands {operand : Link → Reading Operand}
    (writes : WritesOperand scope operand) {limit : Nat} {tokens rest : List Token}
    {read : List Operand}
    (accepted : (laterOperands scope operand limit).run tokens = .ok (read, rest))
    (enough : tokens.length ≤ limit) : linkAhead? scope rest = none := by
  induction limit generalizing tokens read with
  | zero =>
      obtain ⟨_, rfl⟩ := run_pure_eq_ok_iff.mp accepted
      rw [List.length_eq_zero_iff.mp (Nat.le_zero.mp enough)]
      rfl
  | succ limit ih =>
      cases ahead : linkAhead? scope tokens with
      | none =>
          rw [run_laterOperands_of_unlinked ahead] at accepted
          cases accepted
          exact ahead
      | some link =>
          obtain ⟨operator, next, _, first, later, rfl, _, _, firstRead, laterRead, _⟩ :=
            exists_of_run_laterOperands ahead accepted
          obtain ⟨taken, rfl, _, written⟩ := writes link firstRead
          have positive := List.length_pos_iff.mpr written.tokens_ne_nil
          refine ih laterRead ?_
          simp only [List.length_append] at enough
          omega

end Grammar

theorem Test.Written.nextIs_tilde_eq_false {test : Test} {tokens : List Token}
    (written : test.Written scope tokens) (short : tokens.length ≤ 1) :
    nextIs .tilde tokens = false := by
  cases written with
  | term qualifier word _ =>
      cases qualifier with
      | absent => exact nextIs_eq_false .tilde word.kind_mem (by decide) _
      | present qualifying =>
          obtain ⟨_, _, _, rfl, kind, _⟩ := qualifying.exists_cons
          exact nextIs_eq_false .tilde kind (by decide) _
  | phrase qualifier text _ =>
      cases qualifier with
      | absent => exact nextIs_eq_false .tilde text.kind_mem (by decide) _
      | present qualifying =>
          obtain ⟨_, _, _, rfl, kind, _⟩ := qualifying.exists_cons
          exact nextIs_eq_false .tilde kind (by decide) _
  | exactTerm mark _ _ _ | exactPhrase mark _ _ _ | template mark _ | templates mark _ _ _ _ =>
      simp [nextIs, mark]
  | synonym _ _ _ _ => simp at short
  | span written =>
      cases written with
      | proximity written =>
          cases written with
          | mk first _ _ => exact nextIs_eq_false .tilde first.kind_mem (by decide) _
      | range written =>
          cases written with
          | dotted low _ _ => exact nextIs_eq_false .tilde low.kind_mem (by decide) _
          | bracketed _ _ _ _ _ => simp at short

theorem Part.Written.nextIs_tilde_eq_false {part : Part} {tokens : List Token}
    (written : Part.Written scope part tokens) (short : tokens.length ≤ 1) :
    nextIs .tilde tokens = false := by
  have front {first rest : List Token} (filled : first ≠ [])
      (other : first.length ≤ 1 → nextIs .tilde first = false)
      (short : (first ++ rest).length ≤ 1) : nextIs .tilde (first ++ rest) = false := by
    rw [nextIs_append_of_ne_nil filled]
    rw [List.length_append] at short
    exact other (by omega)
  induction written with
  | operand sign body _ ih =>
      cases sign with
      | absent =>
          obtain ⟨_, _, rfl, _⟩ := body.begins
          exact front (by simp) ih short
      | present member => exact nextIs_eq_false .tilde (Sign.mem_signs member) (by decide) _
  | test written => exact written.nextIs_tilde_eq_false short
  | group opens _ _ _ => simp [nextIs, opens]
  | fieldGroup qualifying _ _ _ _ | fieldSpan qualifying _ =>
      obtain ⟨_, _, _, rfl, kind, _⟩ := qualifying.exists_cons
      exact nextIs_eq_false .tilde kind (by decide) _
  | operands _ first _ ih _ => exact front first.tokens_ne_nil ih short
  | done => rfl
  | @later _ next _ _ _ _ link nextWritten _ ih _ =>
      rcases link.eq_nil_or_operator with rfl | ⟨operator, member, rfl⟩
      · exact front nextWritten.tokens_ne_nil ih short
      · have other : TokenKind.tilde ∉ next.link.kinds := by cases next.link <;> decide
        exact nextIs_eq_false .tilde member other _

theorem Part.Written.nextIn_laterStarts {later : List Operand} {tokens : List Token}
    (written : Part.Written scope (.later later) tokens) (filled : tokens ≠ []) :
    nextIn (laterStarts scope) tokens = true := by
  cases written with
  | done => exact absurd rfl filled
  | @later _ next _ _ _ rest link nextWritten _ =>
      rcases link.eq_nil_or_operator with rfl | ⟨operator, member, rfl⟩
      · obtain ⟨token, after, member, split⟩ :=
          nextIn_eq_true_iff.mp (nextWritten.nextIn_operandStarts rest)
        exact nextIn_eq_true_iff.mpr ⟨token, after, List.mem_append_right _ member, split⟩
      · have subset : next.link.kinds ⊆ laterStarts scope := by
          cases next.link <;> cases scope <;> decide
        exact nextIn_eq_true_iff.mpr ⟨operator, _, subset member, rfl⟩

theorem Part.Written.swappedBehind {later : List Operand} {front : List Token}
    (written : Part.Written scope (.later later) front) (behind : SwappedBehind old new) :
    SwappedBehind (front ++ old) (front ++ new) := by
  by_cases filled : front = []
  · rw [filled]
    exact behind
  · have unlike := nextIn_eq_false_of_nextIn (written.nextIn_laterStarts filled)
      (laterStarts_apart scope)
    refine ⟨behind.toSwapped.append_left filled written.opened_eq ?_ ?_, ?_⟩
    · exact nextIn_eq_false_of_subset unlike (by decide)
    · rintro tilde rfl kind
      have other := written.nextIs_tilde_eq_false (Nat.le_refl 1)
      simp [nextIs, kind] at other
    · rw [nextIs_append_of_ne_nil filled]
      exact nextIs_eq_false_of_nextIn unlike (by decide)

theorem Link.Written.linkAhead?_eq {link : Link} {operator next : List Token}
    (written : link.Written operator) (filled : next ≠ [])
    (ahead : linkAhead? scope (operator ++ (next ++ old)) = some link)
    (follows : ∀ token, next = [token] → token.kind ∈ [TokenKind.and, .or] →
      nextIn (operandStarts scope) new = false) :
    linkAhead? scope (operator ++ (next ++ new)) = some link := by
  rw [← List.append_assoc, ← ahead, ← List.append_assoc]
  refine (linkAhead?_append_congr (by simp [filled]) ?_).symm
  intro token single keyword
  cases written with
  | adjacent =>
      rw [List.nil_append] at single
      rw [follows token single keyword]
      rw [single] at ahead
      exact nextIn_eq_false_of_adjacent keyword ahead
  | operator member => simp [filled] at single

variable {operand : Link → Reading Operand}

theorem run_laterOperands_swapped (writes : WritesOperand scope operand) (swaps : Swaps operand)
    (behind : SwappedBehind old new) (unlinked : linkAhead? scope new = none) {limit : Nat}
    {front : List Token} {read : List Operand}
    (accepted : (laterOperands scope operand limit).run (front ++ old) = .ok (read, old))
    {other : Nat} (enough : (front ++ new).length ≤ other) :
    (laterOperands scope operand other).run (front ++ new) = .ok (read, new) := by
  -- The induction is on the limit of the old loop. That of the new one need only be high enough.
  have none {front : List Token} (split : front ++ old = old) (limit : Nat) :
      (laterOperands scope operand limit).run (front ++ new) = .ok ([], new) := by
    rw [List.append_left_eq_self.mp split]
    exact run_laterOperands_of_unlinked unlinked limit
  induction limit generalizing front read other with
  | zero =>
      obtain ⟨rfl, split⟩ := run_pure_eq_ok_iff.mp accepted
      exact none split other
  | succ limit ih =>
      cases ahead : linkAhead? scope (front ++ old) with
      | none =>
          rw [run_laterOperands_of_unlinked ahead] at accepted
          obtain ⟨rfl, split⟩ := Prod.mk.inj (Except.ok.inj accepted)
          exact none split other
      | some link =>
          obtain ⟨operator, _, _, first, later, split, linkWritten, _, firstRead, laterRead, rfl⟩ :=
            exists_of_run_laterOperands ahead accepted
          obtain ⟨next, rfl, _, nextWritten⟩ := writes link firstRead
          obtain ⟨rest, rfl, laterWritten⟩ := laterOperands_written writes laterRead
          obtain rfl : front = operator ++ (next ++ rest) :=
            List.append_cancel_right (split.trans (by simp))
          have filled := nextWritten.tokens_ne_nil
          have ahead : linkAhead? scope (operator ++ (next ++ rest ++ old)) = some link := by
            rwa [← List.append_assoc]
          have relinked : linkAhead? scope (operator ++ (next ++ rest ++ new)) = some link :=
            linkWritten.linkAhead?_eq (by simp [filled]) ahead
              fun _ _ _ => nextIn_eq_false_of_unlinked unlinked
          rw [List.append_assoc] at relinked
          rw [List.append_assoc, List.append_assoc]
          simp only [List.length_append] at enough
          have positive := List.length_pos_iff.mpr filled
          obtain ⟨other, rfl⟩ := Nat.exists_eq_add_of_lt (show 0 < other by omega)
          refine run_laterOperands_of_link relinked (linkWritten.run_takeLink _)
            (nextWritten.nextIn_operandStarts _)
            (swaps (laterWritten.swappedBehind behind) firstRead) (ih laterRead ?_)
          rw [List.length_append]
          omega

/-- The first operand of a list, and the later ones up to where no other one is linked. -/
theorem exists_of_run_operands (writes : WritesOperand scope operand) {tokens rest : List Token}
    {read : List Operand} (accepted : (operands scope operand).run tokens = .ok (read, rest)) :
    ∃ front others first later, tokens = front ++ (others ++ rest) ∧ read = first :: later ∧
      Part.Written scope (.operand first) front ∧ Part.Written scope (.later later) others ∧
      (operand .opening).run tokens = .ok (first, others ++ rest) ∧
      (laterOperands scope operand (others ++ rest).length).run (others ++ rest) =
        .ok (later, rest) ∧ linkAhead? scope rest = none := by
  simp only [operands, run_within_eq_ok_iff, run_bind_eq_ok_iff, run_pure_eq_ok_iff,
    run_look] at accepted
  obtain ⟨first, _, ⟨_, _, required, firstRead⟩, later, _, laterRead, rfl, rfl⟩ := accepted
  obtain rfl := requireOperand_accepted required
  have unlinked := linkAhead?_eq_none_of_run_laterOperands writes laterRead (Nat.le_refl _)
  obtain ⟨front, rfl, _, firstWritten⟩ := writes .opening firstRead
  obtain ⟨others, rfl, laterWritten⟩ := laterOperands_written writes laterRead
  exact ⟨front, others, first, later, rfl, rfl, firstWritten, laterWritten, firstRead, laterRead,
    unlinked⟩

theorem run_operands_of_opening {front between rest : List Token} {first : Operand}
    {later : List Operand} (starts : nextIn (operandStarts scope) front = true)
    (firstRead : (operand .opening).run front = .ok (first, between))
    (laterRead : (laterOperands scope operand between.length).run between = .ok (later, rest)) :
    (operands scope operand).run front = .ok (first :: later, rest) := by
  simp only [operands, run_within_eq_ok_iff, run_bind_eq_ok_iff, run_pure_eq_ok_iff, run_look]
  exact ⟨first, between, ⟨(), front, run_requireOperand_of_next starts, firstRead⟩, later, rest,
    laterRead, rfl, rfl⟩

theorem noStar_of_unlinked {tokens : List Token} (unlinked : linkAhead? scope tokens = none) :
    nextIs .star tokens = false :=
  nextIs_eq_false_of_nextIn (nextIn_eq_false_of_unlinked unlinked) (by cases scope <;> decide)

theorem operands_endable (writes : WritesOperand scope operand) (swaps : Swaps operand) :
    Endable (operands scope operand) := by
  constructor
  · intro tokens rest read accepted
    obtain ⟨_, _, _, _, _, _, _, _, _, _, unlinked⟩ := exists_of_run_operands writes accepted
    exact noStar_of_unlinked unlinked
  · intro front old new read ended accepted
    obtain ⟨next, others, first, later, split, rfl, nextWritten, laterWritten, firstRead, laterRead,
      unlinked⟩ := exists_of_run_operands writes accepted
    obtain rfl : front = next ++ others := List.append_cancel_right (split.trans (by simp))
    have behind := swappedBehind_of_ended (noStar_of_unlinked unlinked) ended
    rw [List.append_assoc] at firstRead ⊢
    exact run_operands_of_opening (nextWritten.nextIn_operandStarts _)
      (swaps (laterWritten.swappedBehind behind) firstRead)
      (run_laterOperands_swapped writes swaps behind (ended.linkAhead?_eq_none scope) laterRead
        (Nat.le_refl _))

theorem run_sign_swapped {front rest other : List Token} {token : Token} {read : Sign}
    (accepted : sign.run (front ++ token :: rest) = .ok (read, token :: rest)) :
    sign.run (front ++ token :: other) = .ok (read, token :: other) := by
  have same : signAhead (front ++ token :: rest) = signAhead (front ++ token :: other) := by
    cases front <;> rfl
  rw [sign, run_look] at accepted ⊢
  rw [← same]
  split at accepted
  · obtain ⟨rfl, split⟩ := run_pure_eq_ok_iff.mp accepted
    rw [List.append_left_eq_self.mp split]
    rfl
  · simp only [run_bind_eq_ok_iff, run_advance_eq_ok_iff, run_pure_eq_ok_iff] at accepted ⊢
    obtain ⟨_, _, ⟨mark, split⟩, rfl, rfl⟩ := accepted
    obtain rfl : front = [mark] := List.append_cancel_right split
    exact ⟨(), _, ⟨mark, rfl⟩, rfl, rfl⟩

end

theorem operand_swaps {levels : Nat} {scope : Scope} : Swaps (operand levels scope) := by
  induction levels generalizing scope with
  | zero =>
      intro link front old new read _ accepted
      rw [operand, run_within_eq_ok_iff] at accepted
      exact absurd accepted run_fail_ne_ok
  | succ levels ih =>
      intro link front old new read behind accepted
      simp only [operand, run_within_eq_ok_iff, run_bind_eq_ok_iff, run_pure_eq_ok_iff] at accepted ⊢
      obtain ⟨sign, _, signRead, body, _, bodyRead, boost, rest, boostRead, rfl, rfl⟩ :=
        accepted
      obtain ⟨signTokens, split, _⟩ := sign_written signRead
      obtain ⟨tokens, rfl, bodyWritten⟩ :=
        test_written (fun _ => operands_written operand_written) bodyRead
      obtain ⟨suffix, rfl, boostWritten⟩ := boost_written boostRead
      have behindTest : Swapped (suffix ++ rest) (suffix ++ new) := by
        cases boostWritten with
        | absent => exact behind.toSwapped
        | @present _ caret factor mark number =>
            have two : ∀ token, [caret, factor] ≠ [token] := by simp
            refine behind.toSwapped.append_left (by simp) ?_ ?_ fun _ same => absurd same (two _)
            · simp [Token.opens_eq_zero_of_kind mark, number.opens (by decide)]
            · simp [nextIn, mark]
      -- Parentheses in the test hold operands of one level less.
      obtain rfl : front = signTokens ++ (tokens ++ suffix) :=
        List.append_cancel_right (split.trans (by simp))
      have bodyRead := run_test_swapped (fun _ => operands_written operand_written)
        (fun _ => operands_endable operand_written ih) behindTest bodyRead
      obtain ⟨first, rest, rfl, _⟩ := bodyWritten.begins
      simp only [List.append_assoc, List.cons_append] at signRead bodyRead ⊢
      exact ⟨sign, _, run_sign_swapped signRead, body, _, bodyRead, boost, _,
        boostWritten.run_boost behind.noCaret, rfl, rfl⟩

end SearchQuery
