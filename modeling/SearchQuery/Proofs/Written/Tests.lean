import SearchQuery.Proofs.Written.Fields
set_option autoImplicit false

/-!
# Written tests are accepted

A written test is read as what it is written for, and no more than its own tokens is taken, as long
as nothing ahead carries it on. What carries a test on is a tilde, a star, two points or a colon.
-/

namespace SearchQuery

open Reading Grammar

/-!
## Ranges, proximities and templates
-/

theorem Grammar.nextIs_eq_false {kinds : List TokenKind} (kind : TokenKind) {token : Token}
    (member : token.kind ∈ kinds) (other : kind ∉ kinds) (rest : List Token) :
    nextIs kind (token :: rest) = false := by
  rw [nextIs, beq_eq_false_iff_ne]
  rintro rfl
  exact other member

theorem Grammar.nextIn_eq_false {kinds : List TokenKind} (others : List TokenKind) {token : Token}
    (member : token.kind ∈ kinds) (apart : ∀ kind ∈ kinds, kind ∉ others) (rest : List Token) :
    nextIn others (token :: rest) = false := by
  simpa [nextIn] using apart _ member

namespace Test

theorem RangeWritten.run_range {test : Test} {tokens : List Token}
    (written : RangeWritten test tokens) (rest : List Token) :
    Grammar.range.run (tokens ++ rest) = .ok (test, rest) := by
  simp only [Grammar.range, run_within_eq_ok_iff, run_look]
  cases written with
  | dotted lowSame dots highSame =>
      have unbracketed := nextIn_eq_false [.lsquare, .lt] lowSame.kind_mem (by decide)
      rw [if_neg (by simp [unbracketed])]
      simp only [run_bind_eq_ok_iff, run_take_eq_ok_iff, run_takeOneOf_eq_ok_iff,
        run_pure_eq_ok_iff]
      exact ⟨_, _, ⟨_, lowSame, rfl⟩, _, _, ⟨_, Token.leaf_isOf _ dots, rfl⟩, _, _,
        ⟨_, highSame, rfl⟩, rfl, rfl⟩
  | @bracketed lower upper _ _ _ _ _ _ closing opens lowSame upTo highSame closes =>
      have closer : closing.kind ∈ TokenKind.rangeClosers := by
        rw [closes]
        cases upper <;> decide
      rw [if_pos (by cases lower <;> simp [nextIn, opens, Closure.opening])]
      simp only [run_bind_eq_ok_iff, run_advance_eq_ok_iff, run_take_eq_ok_iff,
        run_takeOneOf_eq_ok_iff, run_pure_eq_ok_iff]
      refine ⟨(), _, ⟨_, rfl⟩, _, _, ⟨_, lowSame, rfl⟩, _, _, ⟨_, Token.leaf_isOf _ upTo, rfl⟩,
        _, _, ⟨_, highSame, rfl⟩, ⟨closing.kind, closing.text, closer⟩, _, ⟨_, ⟨rfl, rfl⟩, rfl⟩, ?_, rfl⟩
      cases lower <;> cases upper <;>
        simp [nextIs, opens, closes, Closure.opening, Closure.closing]

theorem DistanceWritten.run_distance {limit : Option WholeNumber} {between : List Token}
    (written : DistanceWritten limit between) {token : Token}
    (word : token.kind ∈ TokenKind.words) (rest : List Token) :
    distance.run (between ++ token :: rest) = .ok (limit, token :: rest) := by
  rw [distance, run_look]
  cases written with
  | absent =>
      have unopened := nextIs_eq_false .lparen word (by decide)
      rw [List.nil_append, if_neg (by simp [unopened])]
      rfl
  | unspecified opens closes =>
      rw [if_pos (by simp [nextIs, opens])]
      simp only [run_bind_eq_ok_iff, run_advance_eq_ok_iff, run_take_eq_ok_iff,
        run_pure_eq_ok_iff, run_look]
      refine ⟨(), _, ⟨_, rfl⟩, none, _, ?_, _, _, ⟨_, Token.leaf_isOf _ closes, rfl⟩, rfl, rfl⟩
      rw [if_neg (by simp [nextIs, closes])]
      rfl
  | limited opens limitSame closes =>
      rw [if_pos (by simp [nextIs, opens])]
      simp only [run_bind_eq_ok_iff, run_advance_eq_ok_iff, run_take_eq_ok_iff,
        run_pure_eq_ok_iff, run_look]
      refine ⟨(), _, ⟨_, rfl⟩, some _, _, ?_, _, _, ⟨_, Token.leaf_isOf _ closes, rfl⟩, rfl, rfl⟩
      rw [if_pos (by simp [nextIs, limitSame.kind_eq])]
      simp only [run_bind_eq_ok_iff, run_take_eq_ok_iff, run_pure_eq_ok_iff]
      exact ⟨_, _, ⟨_, limitSame, rfl⟩, rfl, rfl⟩

theorem StepsWritten.length_le {steps : List (Option WholeNumber × PlainWord)} {tokens : List Token}
    (written : StepsWritten steps tokens) : steps.length ≤ tokens.length := by
  induction written with
  | nil => exact Nat.le_refl _
  | cons _ _ _ _ ih =>
      simp only [List.length_cons, List.length_append]
      omega

/-- Another step begins with a star, and so no limit short of the number of steps is met. -/
theorem StepsWritten.run_proximitySteps {steps : List (Option WholeNumber × PlainWord)}
    {tokens rest : List Token} (written : StepsWritten steps tokens) (nonempty : steps ≠ [])
    (noStar : nextIs .star rest = false) {limit : Nat} (enough : steps.length ≤ limit) :
    (proximitySteps limit).run (tokens ++ rest) = .ok (steps, rest) := by
  induction written generalizing limit with
  | nil => exact absurd rfl nonempty
  | @cons distance _ steps _ token _ later star distanceWritten wordSame laterWritten ih =>
      obtain ⟨limit, rfl⟩ := Nat.exists_eq_add_of_lt enough
      rw [List.length_cons] at enough
      simp only [proximitySteps, run_bind_eq_ok_iff, run_take_eq_ok_iff, run_takeOneOf_eq_ok_iff,
        run_look]
      refine ⟨_, _, ⟨_, Token.leaf_isOf _ star, rfl⟩, distance, token :: (later ++ rest), ?_, _, _,
        ⟨_, wordSame, rfl⟩, ?_⟩
      · simpa using distanceWritten.run_distance wordSame.kind_mem (later ++ rest)
      · cases laterWritten with
        | nil =>
            rw [List.nil_append, if_neg (by simp [noStar])]
            rfl
        | cons nextStar _ _ _ =>
            rw [if_pos (by simp [nextIs, nextStar])]
            simp only [run_bind_eq_ok_iff, run_pure_eq_ok_iff]
            exact ⟨_, _, ih (by simp) (by omega), rfl, rfl⟩

theorem ProximityWritten.exists_cons {test : Test} {tokens : List Token}
    (written : ProximityWritten test tokens) :
    ∃ first star more, tokens = first :: star :: more ∧ first.kind ∈ TokenKind.words ∧
      star.kind = .star := by
  cases written with
  | mk first steps nonempty =>
      cases steps with
      | nil => exact absurd rfl nonempty
      | cons star _ _ _ => exact ⟨_, _, _, rfl, first.kind_mem, star⟩

theorem ProximityWritten.run_proximity {test : Test} {tokens rest : List Token}
    (written : ProximityWritten test tokens) (noStar : nextIs .star rest = false) :
    Grammar.proximity.run (tokens ++ rest) = .ok (test, rest) := by
  cases written with
  | mk firstSame stepsWritten nonempty =>
      have enough := stepsWritten.length_le
      simp only [Grammar.proximity, run_within_eq_ok_iff, run_bind_eq_ok_iff,
        run_takeOneOf_eq_ok_iff, run_pure_eq_ok_iff, run_look]
      refine ⟨_, _, ⟨_, firstSame, rfl⟩, _, _,
        stepsWritten.run_proximitySteps nonempty noStar ?_, rfl, rfl⟩
      rw [List.append_eq, List.length_append]
      omega

theorem ProximityWritten.run_proximityAhead {test : Test} {tokens rest : List Token}
    (written : ProximityWritten test tokens) (noStar : nextIs .star rest = false) :
    proximityAhead.run (tokens ++ rest) = .ok (true, tokens ++ rest) := by
  have begins : mayBeginProximity (tokens ++ rest) = true := by
    obtain ⟨first, star, more, rfl, isWord, isStar⟩ := written.exists_cons
    simp [mayBeginProximity, isStar, TokenKind.isWord, isWord]
  rw [proximityAhead, run_look, if_pos begins, run_wouldSucceed, written.run_proximity noStar]
  rfl

end Test

theorem Grammar.run_proximityAhead_of_absent {tokens : List Token}
    (absent : mayBeginProximity tokens = false) :
    proximityAhead.run tokens = .ok (false, tokens) := by
  rw [proximityAhead, run_look, absent]
  rfl

theorem FieldReference.Written.exists_cons {field : FieldReference} {tokens : List Token}
    (written : field.Written tokens) :
    ∃ first rest, tokens = first :: rest ∧ first.kind ∈ [TokenKind.id, .atSign, .uri] := by
  cases written with
  | marked mark _ => exact ⟨_, _, rfl, by simp [mark]⟩
  | bare written =>
      cases written with
      | plain same | word same _ _ | nameSpace same _ =>
          exact ⟨_, _, rfl, by simp [same.kind_eq]⟩

namespace Test

theorem FieldsWritten.length_le {fields : List FieldReference} {tokens : List Token}
    (written : FieldsWritten fields tokens) : fields.length ≤ tokens.length := by
  induction written with
  | nil => exact Nat.le_refl _
  | cons fieldWritten _ ih | comma fieldWritten _ _ ih =>
      obtain ⟨_, _, rfl, _⟩ := fieldWritten.exists_cons
      simp only [List.length_cons, List.length_append]
      omega

theorem FieldsWritten.exists_cons {fields : List FieldReference} {tokens : List Token}
    (written : FieldsWritten fields tokens) (nonempty : fields ≠ []) :
    ∃ first rest, tokens = first :: rest ∧ first.kind ∈ [TokenKind.id, .atSign, .uri] := by
  cases written with
  | nil => exact absurd rfl nonempty
  | cons fieldWritten _ | comma fieldWritten _ _ =>
      obtain ⟨first, rest, rfl, kind⟩ := fieldWritten.exists_cons
      exact ⟨first, _, rfl, kind⟩

/-- What decides after a field of a template whether another one is read. -/
theorem FieldsWritten.run_laterFields {fields : List FieldReference} {tokens rest : List Token}
    {closing : Token} (written : FieldsWritten fields tokens) (closes : closing.kind = .rparen)
    {limit : Nat} {field : FieldReference}
    (more : fields ≠ [] →
      (templateFields limit).run (tokens ++ closing :: rest) = .ok (fields, closing :: rest)) :
    (look fun ahead =>
      if ahead.isEmpty || nextIs .rparen ahead then
        return [field]
      else do
        let rest ← templateFields limit
        return field :: rest).run (tokens ++ closing :: rest) =
      .ok (field :: fields, closing :: rest) := by
  rw [run_look]
  by_cases empty : fields = []
  · subst empty
    cases written
    rw [if_pos (by simp [nextIs, closes])]
    rfl
  · obtain ⟨first, others, rfl, kind⟩ := written.exists_cons empty
    have unclosed := nextIs_eq_false .rparen kind (by decide)
    rw [List.cons_append, if_neg (by simp [unclosed])]
    simp only [run_bind_eq_ok_iff, run_pure_eq_ok_iff]
    exact ⟨_, _, more empty, rfl, rfl⟩

theorem FieldsWritten.run_templateFields {fields : List FieldReference} {tokens rest : List Token}
    {closing : Token} (written : FieldsWritten fields tokens) (nonempty : fields ≠ [])
    (closes : closing.kind = .rparen) {limit : Nat} (enough : fields.length ≤ limit) :
    (templateFields limit).run (tokens ++ closing :: rest) = .ok (fields, closing :: rest) := by
  induction written generalizing limit with
  | nil => exact absurd rfl nonempty
  | @cons _ fields _ later fieldWritten laterWritten ih =>
      obtain ⟨limit, rfl⟩ := Nat.exists_eq_add_of_lt enough
      rw [List.length_cons] at enough
      have next (kind : TokenKind) (other : kind ∉ [TokenKind.id, .atSign, .uri, .rparen]) :
          nextIs kind (later ++ closing :: rest) = false := by
        by_cases empty : fields = []
        · subst empty
          cases laterWritten
          have closed : closing.kind ∈ [TokenKind.rparen] := by simp [closes]
          exact nextIs_eq_false kind closed (by simp_all) _
        · obtain ⟨first, others, rfl, member⟩ := laterWritten.exists_cons empty
          exact nextIs_eq_false kind member (by simp_all) _
      simp only [templateFields, run_bind_eq_ok_iff]
      rw [List.append_assoc]
      exact ⟨_, _, fieldWritten.run_anyFieldReference (next .colon (by decide)), (), _,
        run_skip_of_other (next .comma (by decide)),
        laterWritten.run_laterFields closes fun more => ih more (by omega)⟩
  | @comma _ fields _ _ later fieldWritten comma laterWritten ih =>
      obtain ⟨limit, rfl⟩ := Nat.exists_eq_add_of_lt enough
      rw [List.length_cons] at enough
      simp only [templateFields, run_bind_eq_ok_iff]
      rw [List.append_assoc]
      exact ⟨_, _, fieldWritten.run_anyFieldReference (by simp [nextIs, comma]), (), _,
        run_skip_of_next comma,
        laterWritten.run_laterFields closes fun more => ih more (by omega)⟩

end Test

/-!
## Tests
-/

namespace Grammar

/-- Nothing ahead carries a test on. -/
abbrev Settled (rest : List Token) : Prop :=
  nextIn [.tilde, .star, .dotDot, .colon] rest = false

theorem nextIs_eq_false_of_nextIn {kinds : List TokenKind} {tokens : List Token}
    (absent : nextIn kinds tokens = false) {kind : TokenKind} (member : kind ∈ kinds) :
    nextIs kind tokens = false := by
  cases tokens with
  | nil => rfl
  | cons token rest =>
      simp only [nextIn, List.contains_eq_mem, decide_eq_false_iff_not] at absent
      rw [nextIs, beq_eq_false_iff_ne]
      rintro rfl
      exact absent member

theorem nextIn_eq_false_of_nextIn {kinds others : List TokenKind} {tokens : List Token}
    (starts : nextIn kinds tokens = true) (apart : ∀ kind ∈ kinds, kind ∉ others) :
    nextIn others tokens = false := by
  obtain ⟨token, rest, member, rfl⟩ := nextIn_eq_true_iff.mp starts
  exact nextIn_eq_false others member apart rest

theorem nextIn_eq_false_of_subset {kinds others : List TokenKind} {tokens : List Token}
    (absent : nextIn kinds tokens = false) (subset : others ⊆ kinds) :
    nextIn others tokens = false := by
  cases tokens with
  | nil => rfl
  | cons token rest =>
      simp only [nextIn, List.contains_eq_mem, decide_eq_false_iff_not] at absent ⊢
      exact fun member => absent (subset member)

theorem Settled.nextIs_eq_false {rest : List Token} (settled : Settled rest) {kind : TokenKind}
    (carries : kind ∈ [TokenKind.tilde, .star, .dotDot, .colon]) : nextIs kind rest = false :=
  nextIs_eq_false_of_nextIn settled carries

theorem mayBeginProximity_eq_false (token : Token) {rest : List Token}
    (noStar : nextIs .star rest = false) : mayBeginProximity (token :: rest) = false := by
  cases rest with
  | nil => rfl
  | cons next rest =>
      rw [nextIs] at noStar
      rw [mayBeginProximity, noStar, Bool.and_false]

theorem testShape?_of_termWord (scope : Scope) {token : Token} {rest : List Token}
    (word : token.kind ∈ TokenKind.termWords) (noDots : nextIs .dotDot rest = false) :
    testShape? scope (token :: rest) = some .term := by
  simp only [testShape?, noDots]
  cases kind : token.kind <;> rw [kind] at word <;> first | rfl | exact absurd word (by decide)

theorem valueShape?_of_termWord {token : Token} {rest : List Token}
    (word : token.kind ∈ TokenKind.termWords) (noDots : nextIs .dotDot rest = false) :
    valueShape? (token :: rest) = some .word := by
  simp only [valueShape?, noDots]
  cases kind : token.kind <;> rw [kind] at word <;> first | rfl | exact absurd word (by decide)

variable {scope : Scope} {operands : Scope → Reading (List Operand)} {result : Body × List Token}

/-- A test without a proximity or a field in front is a plain one. -/
theorem run_test_of_plain_iff {tokens : List Token}
    (noProximity : proximityAhead.run tokens = .ok (false, tokens))
    (unmarked : nextIn [.atSign, .uri] tokens = false) (unnamed : nameAhead tokens = false) :
    (test scope operands).run tokens = .ok result ↔
      (plainTest scope operands).run tokens = .ok result := by
  have formless : (testQualifierForm scope).run tokens = .ok (none, tokens) := by
    rw [testQualifierForm, run_look]
    split
    · exact run_fieldQualifierForm_of_absent unmarked unnamed
    · rfl
  rw [test, run_within_eq_ok_iff, run_bind, noProximity]
  dsimp only
  rw [if_neg (by simp), run_bind, formless]

/-- A test that a mark of its own begins is a plain one. -/
theorem run_test_of_marked_iff (marks : List TokenKind) {mark : Token} {tokens : List Token}
    (member : mark.kind ∈ marks)
    (apart : ∀ kind ∈ marks, kind ∉ TokenKind.words ++ [.atSign, .uri]) :
    (test scope operands).run (mark :: tokens) = .ok result ↔
      (plainTest scope operands).run (mark :: tokens) = .ok result := by
  have wordless := apart _ member
  simp only [List.mem_append, not_or] at wordless
  have noId : mark.kind ≠ .id := by
    intro kind
    exact wordless.1 (by simp [kind, TokenKind.words])
  refine run_test_of_plain_iff (run_proximityAhead_of_absent ?_) ?_ ?_
  · cases tokens <;> simp [mayBeginProximity, TokenKind.isWord, wordless.1]
  · simpa [nextIn] using wordless.2
  · cases tokens <;> simp [nameAhead, noId]

/-- A test with a field in front is the field and what follows it. -/
theorem run_test_of_qualified_iff {field : FieldReference} {qualifier rest : List Token}
    (qualifying : field.Qualifying qualifier) (unnamed : nameAhead rest = false) :
    (test .query operands).run (qualifier ++ rest) = .ok result ↔
      (fieldValue field operands).run rest = .ok result := by
  obtain ⟨qualified, form, found⟩ := qualifying.exists_form unnamed
  obtain ⟨first, second, others, split, kind, colon⟩ := qualifying.exists_cons
  have noProximity : mayBeginProximity (qualifier ++ rest) = false := by
    rw [split]
    simp only [List.mem_cons, List.not_mem_nil, or_false] at kind
    rcases kind with kind | kind | kind
    · exact mayBeginProximity_eq_false _ (by simp [nextIs, colon kind])
    · simp [mayBeginProximity, kind, TokenKind.isWord, TokenKind.words]
    · simp [mayBeginProximity, kind, TokenKind.isWord, TokenKind.words]
  have next : nextIn [.id, .atSign, .uri] (qualifier ++ rest) = true := by
    rw [split]
    simpa [nextIn] using kind
  have formed : (testQualifierForm .query).run (qualifier ++ rest) =
      .ok (some qualified, qualifier ++ rest) := by
    rw [testQualifierForm, run_look, if_pos ⟨rfl, next⟩]
    exact found
  rw [test, run_within_eq_ok_iff, run_bind, run_proximityAhead_of_absent noProximity]
  dsimp only
  rw [if_neg (by simp), run_bind, formed]
  dsimp only
  rw [fieldQualified, run_within_eq_ok_iff, run_bind, qualifying.run_fieldQualifier form rest]

/-- An opening parenthesis begins operands, and nothing else. -/
theorem run_test_of_group_iff {opening : Token} {tokens : List Token}
    (opens : opening.kind = .lparen) :
    (test scope operands).run (opening :: tokens) = .ok result ↔
      ∃ inner, (group scope (operands scope)).run (opening :: tokens) = .ok (inner, result.2) ∧
        Body.group inner = result.1 := by
  have shape : testShape? scope (opening :: tokens) = some .group := by
    simp [testShape?, opens, TokenKind.isWord, TokenKind.words]
  obtain ⟨body, rest⟩ := result
  rw [run_test_of_marked_iff [.lparen] (by simp [opens]) (by decide), plainTest,
    run_look, shape]
  simp only [run_bind_eq_ok_iff, run_pure_eq_ok_iff]
  constructor
  · rintro ⟨inner, _, read, same, rfl⟩
    exact ⟨inner, read, same⟩
  · rintro ⟨inner, read, same⟩
    exact ⟨inner, rest, read, same, rfl⟩

/-- After a field, an opening parenthesis begins its operands. -/
theorem run_fieldValue_of_group_iff {field : FieldReference} {opening : Token}
    {tokens : List Token} (opens : opening.kind = .lparen) :
    (fieldValue field operands).run (opening :: tokens) = .ok result ↔
      ∃ inner, (group .fieldGroup (operands .fieldGroup)).run (opening :: tokens) =
          .ok (inner, result.2) ∧ Body.fieldGroup field inner = result.1 := by
  have shape : valueShape? (opening :: tokens) = some .group := by
    simp [valueShape?, opens]
  obtain ⟨body, rest⟩ := result
  rw [fieldValue, run_bind, run_look, run_pure, shape]
  simp only [run_bind_eq_ok_iff, run_pure_eq_ok_iff]
  constructor
  · rintro ⟨inner, _, read, same, rfl⟩
    exact ⟨inner, read, same⟩
  · rintro ⟨inner, read, same⟩
    exact ⟨inner, rest, read, same, rfl⟩

theorem nameAhead_of_group {opening : Token} {tokens : List Token}
    (opens : opening.kind = .lparen) : nameAhead (opening :: tokens) = false := by
  cases tokens <;> simp [nameAhead, opens]

/-- A plain test whose reading accepts is accepted. -/
theorem run_plainTest {reading : Reading Test} {tokens rest : List Token}
    {test : Test} (accepted : reading.run tokens = .ok (test, rest))
    (shaped : (plainTest scope operands).run tokens =
      (do return Body.test (← reading) : Reading Body).run tokens) :
    (plainTest scope operands).run tokens = .ok (.test test, rest) := by
  rw [shaped, run_bind, accepted]
  rfl

/-- A test whose mark tells what is to be read is read so. -/
theorem run_test_of_mark {reading : Reading Test} {kind : TokenKind} {mark : Token}
    {tokens rest : List Token} {read : Test} (marked : mark.kind = kind)
    (tells : kind ∈ [TokenKind.equals, .tilde, .percent])
    (accepted : reading.run (mark :: tokens) = .ok (read, rest))
    (shaped : (plainTest scope operands).run (mark :: tokens) =
      (do return Body.test (← reading) : Reading Body).run (mark :: tokens)) :
    (test scope operands).run (mark :: tokens) = .ok (.test read, rest) :=
  (run_test_of_marked_iff _ (marked ▸ tells) (by decide)).mpr (run_plainTest accepted shaped)

end Grammar

/-- Words that a suffix may follow are not carried on by what comes after the suffix. -/
theorem SuffixWritten.nextIs_eq_false {kinds : List TokenKind} {read : Option (Leaf kinds)}
    {suffix rest : List Token} (written : SuffixWritten .tilde read suffix) (settled : Settled rest)
    (kind : TokenKind) (carries : kind ∈ [TokenKind.star, .dotDot, .colon]) :
    nextIs kind (suffix ++ rest) = false := by
  refine written.nextIs_append ?_ (settled.nextIs_eq_false (List.mem_cons_of_mem _ carries))
  rintro rfl
  exact absurd carries (by decide)

/-- What comes behind a word or phrase does not carry it on. -/
structure Grammar.Lone (token : Token) (behind : List Token) : Prop where
  noDots : nextIs .dotDot behind = false
  noColon : nextIs .colon behind = false
  noProximity : proximityAhead.run (token :: behind) = .ok (false, token :: behind)

theorem SuffixWritten.lone {kinds : List TokenKind} {read : Option (Leaf kinds)}
    {suffix rest : List Token} (written : SuffixWritten .tilde read suffix) (settled : Settled rest)
    (token : Token) : Lone token (suffix ++ rest) := by
  have noStar := written.nextIs_eq_false settled .star (by decide)
  constructor
  · exact written.nextIs_eq_false settled .dotDot (by decide)
  · exact written.nextIs_eq_false settled .colon (by decide)
  · exact run_proximityAhead_of_absent (mayBeginProximity_eq_false token noStar)

namespace Test

section

variable {scope : Scope} {operands : Scope → Reading (List Operand)} {behind rest : List Token}

theorem run_fieldValue_term {field : FieldReference} {word : TermWord} {token : Token}
    {fuzziness : Option Number} (wordSame : word.IsOf token) (lone : Lone token behind)
    (loosened : Grammar.fuzziness.run behind = .ok (fuzziness, rest)) :
    (fieldValue field operands).run (token :: behind) =
      .ok (.test (.term word (some field) fuzziness), rest) := by
  have shape := valueShape?_of_termWord wordSame.kind_mem lone.noDots
  simp only [fieldValue, run_bind_eq_ok_iff, run_look, run_pure_eq_ok_iff]
  refine ⟨some .word, _, ⟨shape, rfl⟩, ?_⟩
  dsimp only
  rw [run_bind_eq_ok_iff]
  refine ⟨false, _, lone.noProximity, ?_⟩
  simp only [Bool.false_eq_true, if_false, run_bind_eq_ok_iff, run_takeOneOf_eq_ok_iff,
    run_pure_eq_ok_iff]
  exact ⟨_, _, ⟨_, wordSame, rfl⟩, _, _, loosened, rfl, rfl⟩

theorem run_fieldValue_phrase {field : FieldReference} {text : PhraseText} {token : Token}
    {slop : Option WholeNumber} (textSame : text.IsOf token) (lone : Lone token behind)
    (loosened : Grammar.slop.run behind = .ok (slop, rest)) :
    (fieldValue field operands).run (token :: behind) =
      .ok (.test (.phrase text (some field) slop), rest) := by
  have shape : valueShape? (token :: behind) = some .phrase := by
    rw [valueShape?, lone.noDots, textSame.kind_eq]
    rfl
  simp only [fieldValue, run_bind_eq_ok_iff, run_look, run_pure_eq_ok_iff]
  refine ⟨some .phrase, _, ⟨shape, rfl⟩, ?_⟩
  dsimp only
  rw [run_bind_eq_ok_iff]
  refine ⟨false, _, lone.noProximity, ?_⟩
  simp only [Bool.false_eq_true, if_false, run_bind_eq_ok_iff, run_take_eq_ok_iff,
    run_pure_eq_ok_iff]
  exact ⟨_, _, ⟨_, textSame, rfl⟩, _, _, loosened, rfl, rfl⟩

theorem run_term {word : TermWord} {token : Token} {fuzziness : Option Number}
    (wordSame : word.IsOf token) (lone : Lone token behind)
    (loosened : Grammar.fuzziness.run behind = .ok (fuzziness, rest)) :
    (test scope operands).run (token :: behind) = .ok (.test (.term word none fuzziness), rest) := by
  have shape := testShape?_of_termWord scope wordSame.kind_mem lone.noDots
  have read : Grammar.term.run (token :: behind) = .ok (.term word none fuzziness, rest) := by
    simp only [Grammar.term, run_within_eq_ok_iff, run_bind_eq_ok_iff, run_takeOneOf_eq_ok_iff,
      run_pure_eq_ok_iff]
    exact ⟨_, _, ⟨_, wordSame, rfl⟩, _, _, loosened, rfl, rfl⟩
  refine (run_test_of_plain_iff lone.noProximity
    (nextIn_eq_false _ wordSame.kind_mem (by decide) _) (nameAhead_eq_false lone.noColon)).mpr
    (run_plainTest read ?_)
  rw [plainTest, run_look, shape]

theorem run_phrase {text : PhraseText} {token : Token} {slop : Option WholeNumber}
    (textSame : text.IsOf token) (lone : Lone token behind)
    (loosened : Grammar.slop.run behind = .ok (slop, rest)) :
    (test scope operands).run (token :: behind) = .ok (.test (.phrase text none slop), rest) := by
  have shape : testShape? scope (token :: behind) = some .phrase := by
    rw [testShape?, lone.noDots, textSame.kind_eq]
    rfl
  have read : Grammar.phrase.run (token :: behind) = .ok (.phrase text none slop, rest) := by
    simp only [Grammar.phrase, run_within_eq_ok_iff, run_bind_eq_ok_iff, run_take_eq_ok_iff,
      run_pure_eq_ok_iff]
    exact ⟨_, _, ⟨_, textSame, rfl⟩, _, _, loosened, rfl, rfl⟩
  refine (run_test_of_plain_iff lone.noProximity
    (nextIn_eq_false _ textSame.kind_mem (by decide) _) (nameAhead_eq_false lone.noColon)).mpr
    (run_plainTest read ?_)
  rw [plainTest, run_look, shape]

theorem run_exactTest_term {word : TermWord} {field : Option FieldReference}
    {fuzziness : Option Number} {equals token : Token} {qualifier : List Token}
    (equalsKind : equals.kind = .equals) (qualifierWritten : QualifierWritten scope field qualifier)
    (wordSame : word.IsOf token) (noColon : nextIs .colon behind = false)
    (loosened : Grammar.fuzziness.run behind = .ok (fuzziness, rest)) :
    (exactTest scope).run (equals :: (qualifier ++ token :: behind)) =
      .ok (.exactTerm word field fuzziness, rest) := by
  simp only [exactTest, run_within_eq_ok_iff, run_bind_eq_ok_iff, run_take_eq_ok_iff, run_look]
  refine ⟨_, _, ⟨_, Token.leaf_isOf _ equalsKind, rfl⟩, field, _,
    qualifierWritten.run_optionalFieldQualifier
      (nextIn_eq_false _ wordSame.kind_mem (by decide) _) (nameAhead_eq_false noColon), ?_⟩
  have noPhrase := Grammar.nextIs_eq_false .phrase wordSame.kind_mem (by decide)
  rw [if_neg (by simp [noPhrase])]
  simp only [run_bind_eq_ok_iff, run_takeOneOf_eq_ok_iff, run_pure_eq_ok_iff]
  exact ⟨_, _, ⟨_, wordSame, rfl⟩, _, _, loosened, rfl, rfl⟩

theorem run_exactTest_phrase {text : PhraseText} {field : Option FieldReference}
    {slop : Option WholeNumber} {equals token : Token} {qualifier : List Token}
    (equalsKind : equals.kind = .equals) (qualifierWritten : QualifierWritten scope field qualifier)
    (textSame : text.IsOf token) (noColon : nextIs .colon behind = false)
    (loosened : Grammar.slop.run behind = .ok (slop, rest)) :
    (exactTest scope).run (equals :: (qualifier ++ token :: behind)) =
      .ok (.exactPhrase text field slop, rest) := by
  simp only [exactTest, run_within_eq_ok_iff, run_bind_eq_ok_iff, run_take_eq_ok_iff, run_look]
  refine ⟨_, _, ⟨_, Token.leaf_isOf _ equalsKind, rfl⟩, field, _,
    qualifierWritten.run_optionalFieldQualifier
      (nextIn_eq_false _ textSame.kind_mem (by decide) _) (nameAhead_eq_false noColon), ?_⟩
  rw [if_pos (by simp [nextIs, textSame.kind_eq])]
  simp only [run_bind_eq_ok_iff, run_take_eq_ok_iff, run_pure_eq_ok_iff]
  exact ⟨_, _, ⟨_, textSame, rfl⟩, _, _, loosened, rfl, rfl⟩

theorem run_synonym {word : TermWord} {field : Option FieldReference}
    {fuzziness : Option Number} {tilde token : Token} {qualifier : List Token}
    (tildeKind : tilde.kind = .tilde) (qualifierWritten : QualifierWritten scope field qualifier)
    (wordSame : word.IsOf token) (noColon : nextIs .colon behind = false)
    (loosened : Grammar.fuzziness.run behind = .ok (fuzziness, rest)) :
    (Grammar.synonym scope).run (tilde :: (qualifier ++ token :: behind)) =
      .ok (.synonym word field fuzziness, rest) := by
  simp only [Grammar.synonym, run_within_eq_ok_iff, run_bind_eq_ok_iff, run_take_eq_ok_iff,
    run_takeOneOf_eq_ok_iff, run_pure_eq_ok_iff]
  exact ⟨_, _, ⟨_, Token.leaf_isOf _ tildeKind, rfl⟩, field, _,
    qualifierWritten.run_optionalFieldQualifier
      (nextIn_eq_false _ wordSame.kind_mem (by decide) _) (nameAhead_eq_false noColon),
    _, _, ⟨_, wordSame, rfl⟩, _, _, loosened, rfl, rfl⟩

theorem run_template_of_one {field : FieldReference} {percent : Token} {tokens : List Token}
    (percentKind : percent.kind = .percent) (fieldWritten : field.Written tokens)
    (noColon : nextIs .colon rest = false) :
    Grammar.template.run (percent :: (tokens ++ rest)) = .ok (.template [field], rest) := by
  obtain ⟨first, others, split, kind⟩ := fieldWritten.exists_cons
  have unopened := Grammar.nextIs_eq_false .lparen kind (by decide)
  simp only [Grammar.template, run_within_eq_ok_iff, run_bind_eq_ok_iff, run_take_eq_ok_iff,
    run_look]
  refine ⟨_, _, ⟨_, Token.leaf_isOf _ percentKind, rfl⟩, ?_⟩
  rw [if_neg (by simp [split, unopened])]
  simp only [run_bind_eq_ok_iff, run_pure_eq_ok_iff]
  exact ⟨_, _, fieldWritten.run_anyFieldReference noColon, rfl, rfl⟩

theorem run_template_of_several {fields : List FieldReference} {percent opening closing : Token}
    {tokens : List Token} (percentKind : percent.kind = .percent) (opens : opening.kind = .lparen)
    (fieldsWritten : FieldsWritten fields tokens) (nonempty : fields ≠ [])
    (closes : closing.kind = .rparen) :
    Grammar.template.run (percent :: opening :: (tokens ++ closing :: rest)) =
      .ok (.template fields, rest) := by
  obtain ⟨first, others, split, kind⟩ := fieldsWritten.exists_cons nonempty
  have unclosed := Grammar.nextIs_eq_false .rparen kind (by decide)
  have enough := fieldsWritten.length_le
  simp only [Grammar.template, run_within_eq_ok_iff, run_bind_eq_ok_iff, run_take_eq_ok_iff,
    run_look]
  refine ⟨_, _, ⟨_, Token.leaf_isOf _ percentKind, rfl⟩, ?_⟩
  rw [if_pos (by simp [nextIs, opens])]
  simp only [run_bind_eq_ok_iff, run_advance_eq_ok_iff, run_look]
  refine ⟨(), _, ⟨_, rfl⟩, ?_⟩
  rw [if_neg (by simp [split, unclosed])]
  simp only [run_bind_eq_ok_iff, run_take_eq_ok_iff, run_pure_eq_ok_iff]
  refine ⟨fields, _, fieldsWritten.run_templateFields nonempty closes ?_, _, _,
    ⟨_, Token.leaf_isOf _ closes, rfl⟩, rfl, rfl⟩
  rw [List.length_append]
  omega

theorem testShape?_of_rangeBound {token dots : Token} {tokens : List Token}
    (bound : token.kind ∈ TokenKind.rangeBounds) (dotted : dots.kind = .dotDot) :
    testShape? scope (token :: dots :: tokens) = some .range := by
  have beforeDots : nextIs .dotDot (dots :: tokens) = true := by simpa [nextIs] using dotted
  simp only [testShape?, beforeDots]
  cases kind : token.kind <;> rw [kind] at bound <;> first | rfl | exact absurd bound (by decide)

theorem valueShape?_of_rangeBound {token dots : Token} {tokens : List Token}
    (bound : token.kind ∈ TokenKind.rangeBounds) (dotted : dots.kind = .dotDot) :
    valueShape? (token :: dots :: tokens) = some .range := by
  have beforeDots : nextIs .dotDot (dots :: tokens) = true := by simpa [nextIs] using dotted
  simp only [valueShape?, beforeDots]
  cases kind : token.kind <;> rw [kind] at bound <;> first | rfl | exact absurd bound (by decide)

theorem RangeWritten.run_test {test : Test} {tokens : List Token}
    (written : RangeWritten test tokens) :
    (Grammar.test scope operands).run (tokens ++ rest) = .ok (.test test, rest) := by
  have accepted := written.run_range rest
  cases written with
  | dotted lowSame dots highSame =>
      refine (run_test_of_plain_iff
        (run_proximityAhead_of_absent (mayBeginProximity_eq_false _ (by simp [nextIs, dots])))
        (nextIn_eq_false _ lowSame.kind_mem (by decide) _)
        (nameAhead_eq_false (by simp [nextIs, dots]))).mpr (run_plainTest accepted ?_)
      rw [plainTest, run_look, List.append_eq, List.cons_append,
        testShape?_of_rangeBound lowSame.kind_mem dots]
  | @bracketed lower _ _ _ opening _ _ _ _ opens _ _ _ _ =>
      have member : opening.kind ∈ [TokenKind.lsquare, .lt] := by
        rw [opens]
        cases lower <;> decide
      refine (run_test_of_marked_iff _ member (by decide)).mpr (run_plainTest accepted ?_)
      rw [plainTest, run_look, testShape?, opens]
      cases lower <;> rfl

theorem ProximityWritten.run_test {test : Test} {tokens : List Token}
    (written : ProximityWritten test tokens) (noStar : nextIs .star rest = false) :
    (Grammar.test scope operands).run (tokens ++ rest) = .ok (.test test, rest) := by
  simp only [Grammar.test, run_within_eq_ok_iff, run_bind_eq_ok_iff]
  refine ⟨true, _, written.run_proximityAhead noStar, ?_⟩
  simp only [if_true, run_bind_eq_ok_iff, run_pure_eq_ok_iff]
  exact ⟨_, _, written.run_proximity noStar, rfl, rfl⟩

/-- A written test is read as what it is written for. -/
theorem Written.run_test {test : Test} {tokens : List Token} (written : test.Written scope tokens)
    (settled : Settled rest) :
    (Grammar.test scope operands).run (tokens ++ rest) = .ok (.test test, rest) := by
  have noTilde := settled.nextIs_eq_false (show TokenKind.tilde ∈ _ by decide)
  cases written with
  | @term _ _ _ _ token _ _ qualifierWritten wordSame suffixWritten =>
      have lone := suffixWritten.lone settled token
      have loosened := suffixWritten.run_fuzziness noTilde
      cases qualifierWritten with
      | absent => exact run_term wordSame lone loosened
      | present qualifying =>
          rw [List.append_assoc]
          exact (run_test_of_qualified_iff qualifying (nameAhead_eq_false lone.noColon)).mpr
            (run_fieldValue_term wordSame lone loosened)
  | @phrase _ _ _ _ token _ _ qualifierWritten textSame suffixWritten =>
      have lone := suffixWritten.lone settled token
      have loosened := suffixWritten.run_slop noTilde
      cases qualifierWritten with
      | absent => exact run_phrase textSame lone loosened
      | present qualifying =>
          rw [List.append_assoc]
          exact (run_test_of_qualified_iff qualifying (nameAhead_eq_false lone.noColon)).mpr
            (run_fieldValue_phrase textSame lone loosened)
  | exactTerm equals qualifierWritten wordSame suffixWritten =>
      have noColon := suffixWritten.nextIs_eq_false settled .colon (by decide)
      rw [List.append_assoc]
      refine run_test_of_mark equals (by decide)
        (run_exactTest_term equals qualifierWritten wordSame noColon
          (suffixWritten.run_fuzziness noTilde)) ?_
      simp [plainTest, testShape?, equals, TokenKind.isWord, TokenKind.words]
  | exactPhrase equals qualifierWritten textSame suffixWritten =>
      have noColon := suffixWritten.nextIs_eq_false settled .colon (by decide)
      rw [List.append_assoc]
      refine run_test_of_mark equals (by decide)
        (run_exactTest_phrase equals qualifierWritten textSame noColon
          (suffixWritten.run_slop noTilde)) ?_
      simp [plainTest, testShape?, equals, TokenKind.isWord, TokenKind.words]
  | synonym tilde qualifierWritten wordSame suffixWritten =>
      have noColon := suffixWritten.nextIs_eq_false settled .colon (by decide)
      rw [List.append_assoc]
      refine run_test_of_mark tilde (by decide)
        (run_synonym tilde qualifierWritten wordSame noColon
          (suffixWritten.run_fuzziness noTilde)) ?_
      simp [plainTest, testShape?, tilde, TokenKind.isWord, TokenKind.words]
  | span written =>
      cases written with
      | range written => exact written.run_test
      | proximity written => exact written.run_test (settled.nextIs_eq_false (by decide))
  | template percent fieldWritten =>
      refine run_test_of_mark percent (by decide)
        (run_template_of_one percent fieldWritten (settled.nextIs_eq_false (by decide))) ?_
      simp [plainTest, testShape?, percent, TokenKind.isWord, TokenKind.words]
  | templates percent opens fieldsWritten nonempty closes =>
      rw [List.append_assoc]
      refine run_test_of_mark percent (by decide)
        (run_template_of_several percent opens fieldsWritten nonempty closes) ?_
      simp [plainTest, testShape?, percent, TokenKind.isWord, TokenKind.words]

/-!
## Ranges and proximities after a field
-/

theorem SpanWritten.nameAhead_eq_false {test : Test} {tokens : List Token}
    (written : test.SpanWritten tokens) (rest : List Token) :
    nameAhead (tokens ++ rest) = false := by
  cases written with
  | range written =>
      cases written with
      | dotted _ dots _ => exact Grammar.nameAhead_eq_false (by simp [nextIs, dots])
      | @bracketed lower _ _ _ _ _ _ _ _ opens _ _ _ _ =>
          cases lower <;> simp [nameAhead, opens, Closure.opening]
  | proximity written =>
      obtain ⟨first, star, more, rfl, _, isStar⟩ := written.exists_cons
      exact Grammar.nameAhead_eq_false (by simp [nextIs, isStar])

theorem RangeWritten.run_fieldValue {field : FieldReference} {test : Test} {tokens : List Token}
    (written : RangeWritten test tokens) :
    (fieldValue field operands).run (tokens ++ rest) =
      .ok (.fieldGroup field [.ofTest test], rest) := by
  have shape : valueShape? (tokens ++ rest) = some .range := by
    cases written with
    | dotted lowSame dots _ => exact valueShape?_of_rangeBound lowSame.kind_mem dots
    | @bracketed lower _ _ _ _ _ _ _ _ opens _ _ _ _ =>
        rw [List.cons_append, valueShape?, opens]
        cases lower <;> rfl
  simp only [fieldValue, run_bind_eq_ok_iff, run_pure_eq_ok_iff, run_look]
  refine ⟨some .range, _, ⟨shape, rfl⟩, ?_⟩
  simp only [run_bind_eq_ok_iff, run_pure_eq_ok_iff]
  exact ⟨test, rest, written.run_range rest, rfl, rfl⟩

/-- After a field, a range or a proximity is the only operand of a field group. -/
theorem SpanWritten.run_fieldValue {field : FieldReference} {test : Test} {tokens : List Token}
    (written : test.SpanWritten tokens) (noStar : nextIs .star rest = false) :
    (fieldValue field operands).run (tokens ++ rest) =
      .ok (.fieldGroup field [.ofTest test], rest) := by
  cases written with
  | range written => exact written.run_fieldValue
  | proximity written =>
      have shape : valueShape? (tokens ++ rest) = some .word := by
        obtain ⟨first, star, more, rfl, isWord, isStar⟩ := written.exists_cons
        exact valueShape?_of_termWord (List.mem_append_left _ isWord) (by simp [nextIs, isStar])
      simp only [fieldValue, run_bind_eq_ok_iff, run_pure_eq_ok_iff, run_look]
      refine ⟨some .word, _, ⟨shape, rfl⟩, ?_⟩
      dsimp only
      rw [run_bind_eq_ok_iff]
      refine ⟨true, _, written.run_proximityAhead noStar, ?_⟩
      simp only [if_true, run_bind_eq_ok_iff, run_pure_eq_ok_iff]
      exact ⟨test, rest, written.run_proximity noStar, rfl, rfl⟩

end

end Test

end SearchQuery
