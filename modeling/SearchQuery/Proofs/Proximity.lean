import SearchQuery.Proofs.Completion.Queries
import SearchQuery.Proofs.Single.FieldSpan
set_option autoImplicit false

/-!
# How far a proximity goes

A test that begins with a proximity is the longest one that is there, and the reading goes on right
behind it. A single token undoes this: a star behind the longest proximity. It must begin a step,
and as there is none, the whole is given up and the test is the first word.
-/

namespace SearchQuery

open Reading Grammar

/-!
## The longest proximity
-/

namespace Test

/-- A proximity and what is behind it, where no longer proximity begins at the same place. -/
structure Longest (test : Test) (taken rest : List Token) : Prop where
  written : ProximityWritten test taken
  longest : ∀ other longer behind, longer ++ behind = taken ++ rest →
    ProximityWritten other longer → longer.length ≤ taken.length

variable {test : Test} {taken rest : List Token}

theorem ProximityWritten.exists_longest (written : ProximityWritten test taken)
    (rest : List Token) :
    ∃ (other : Test) (front behind : List Token),
      taken ++ rest = front ++ behind ∧ other.Longest front behind := by
  -- What is behind gets shorter with each longer proximity.
  induction remaining : rest.length using Nat.strong_induction_on generalizing test taken rest with
  | _ remaining ih =>
      by_cases longer : ∃ other front behind, front ++ behind = taken ++ rest ∧
          ProximityWritten other front ∧ taken.length < front.length
      · obtain ⟨other, front, behind, split, otherWritten, more⟩ := longer
        have lengths := congrArg List.length split
        simp only [List.length_append] at lengths
        rw [← split]
        exact ih behind.length (by omega) otherWritten behind rfl
      · refine ⟨test, taken, rest, rfl, written, ?_⟩
        intro other front behind split otherWritten
        apply Nat.le_of_not_lt
        intro more
        exact longer ⟨other, front, behind, split, otherWritten, more⟩

/-- Before a star, no part of the longest proximity is one that ends without a star. -/
theorem Longest.not_beginsProximity (longest : test.Longest taken rest)
    (star : nextIs .star rest = true) : ¬ BeginsProximity (taken ++ rest) := by
  rintro ⟨other, front, behind, split, written, noStar⟩
  have bound := longest.longest other front behind split.symm written
  obtain ⟨more, rfl, rfl⟩ : ∃ more, taken = front ++ more ∧ behind = more ++ rest := by
    rcases List.append_eq_append_iff.mp split with ⟨more, rfl, rfl⟩ | ⟨more, rfl, rfl⟩
    · rw [List.length_append] at bound
      obtain rfl : more = [] := List.eq_nil_of_length_eq_zero (by omega)
      exact ⟨[], by simp, by simp⟩
    · exact ⟨more, rfl, rfl⟩
  cases more with
  | nil =>
      rw [List.nil_append, star] at noStar
      cases noStar
  | cons token more =>
      have short : Grammar.proximity.run (front ++ token :: more) = .ok (other, token :: more) :=
        written.run_proximity noStar
      have whole : Grammar.proximity.run ((front ++ token :: more) ++ []) = .ok (test, []) :=
        longest.written.run_proximity rfl
      rw [List.append_nil, short] at whole
      cases whole

theorem Longest.run_proximityAhead (longest : test.Longest taken rest)
    (star : nextIs .star rest = true) :
    proximityAhead.run (taken ++ rest) = .ok (false, taken ++ rest) := by
  have absent : (Grammar.proximity.run (taken ++ rest)).isOk = false := by
    apply Bool.eq_false_iff.mpr
    intro found
    exact longest.not_beginsProximity star (isOk_run_proximity_iff.mp found)
  rw [run_proximityAhead_eq, absent]

end Test

/-- What is made of a proximity or a range, in a field or in none. -/
def Body.ofSpan (test : Test) : Option FieldReference → Body
  | none => .test test
  | some field => .fieldGroup field [.ofTest test]

/-!
## Tests that begin with a proximity
-/

namespace Grammar

/-- A test is read as a body up to some tokens wherever it begins with these tokens: by itself, and
in an operand, where a sign may stand in front and a boost may follow. -/
structure TestRead (scope : Scope) (tokens : List Token) (body : Body) (rest : List Token) :
    Prop where
  alone : ∀ operands, (test scope operands).run tokens = .ok (body, rest)
  operand : ∀ levels link sign front boost after, Sign.Written sign front →
    (front = [] → signAhead tokens = .none) → Grammar.boost.run rest = .ok (boost, after) →
    (operand (levels + 1) scope link).run (front ++ tokens) = .ok (.mk link sign body boost, after)

theorem run_sign_of_written {sign : Sign} {front tokens : List Token}
    (written : sign.Written front) (unsigned : front = [] → signAhead tokens = .none) :
    Grammar.sign.run (front ++ tokens) = .ok (sign, tokens) := by
  cases written with
  | absent => exact run_sign_of_unsigned (unsigned rfl)
  | present member =>
      rw [List.cons_append, Grammar.sign, run_look, Sign.signAhead_eq member]
      cases sign with
      | none => cases member
      | negation | mandatory | optional | exclude => rfl

variable {scope : Scope} {body : Body} {tokens rest : List Token}

theorem TestRead.of_run (read : ∀ operands, (test scope operands).run tokens = .ok (body, rest)) :
    TestRead scope tokens body rest where
  alone := read
  operand := by
    intro levels link sign front boost after written unsigned boosted
    exact run_operand_of_parts (run_sign_of_written written unsigned) (read _) boosted

variable {test : Test} {field : Option FieldReference} {taken qualifier : List Token}

theorem nameAhead_of_proximity (written : Test.ProximityWritten test taken) (rest : List Token) :
    nameAhead (taken ++ rest) = false :=
  (Test.SpanWritten.proximity written).nameAhead_eq_false rest

/-- Without a star behind it, the longest proximity is the test. -/
theorem testRead_of_longest (longest : test.Longest taken rest) (noStar : nextIs .star rest = false)
    (written : QualifierWritten scope field qualifier) :
    TestRead scope (qualifier ++ (taken ++ rest)) (Body.ofSpan test field) rest := by
  apply TestRead.of_run
  intro operands
  cases written with
  | absent => exact longest.written.run_test noStar
  | present qualifying =>
      rw [run_test_of_qualified_iff qualifying (nameAhead_of_proximity longest.written rest)]
      exact (Test.SpanWritten.proximity longest.written).run_fieldValue noStar

/-- With a star behind it, the test ends with the first word. -/
theorem exists_testRead_of_star (longest : test.Longest taken rest)
    (star : nextIs .star rest = true) :
    ∃ word first behind, taken ++ rest = first :: behind ∧ word.IsOf first ∧
      ∀ scope field qualifier, QualifierWritten scope field qualifier →
        TestRead scope (qualifier ++ (taken ++ rest)) (.test (.term word field none)) behind := by
  have unnamed := nameAhead_of_proximity longest.written rest
  have noProximity := longest.run_proximityAhead star
  obtain ⟨first, second, more, rfl, isWord, isStar⟩ := longest.written.exists_cons
  have member : first.kind ∈ TokenKind.termWords := List.mem_append_left _ isWord
  have next (kind : TokenKind) (other : TokenKind.star ≠ kind) :
      nextIs kind (second :: more ++ rest) = false := by
    rw [List.cons_append, nextIs, isStar]
    exact beq_eq_false_iff_ne.mpr other
  have lone : Lone first (second :: more ++ rest) :=
    ⟨next .dotDot (by decide), next .colon (by decide), noProximity⟩
  have unloosened : fuzziness.run (second :: more ++ rest) = .ok (none, second :: more ++ rest) :=
    SuffixWritten.absent.run_fuzziness (next .tilde (by decide))
  refine ⟨⟨first.kind, first.text, member⟩, first, second :: more ++ rest, rfl, ⟨rfl, rfl⟩, ?_⟩
  intro scope field qualifier written
  apply TestRead.of_run
  intro operands
  cases written with
  | absent => exact Test.run_term ⟨rfl, rfl⟩ lone unloosened
  | present qualifying =>
      rw [run_test_of_qualified_iff qualifying unnamed]
      exact Test.run_fieldValue_term ⟨rfl, rfl⟩ lone unloosened

/-- How tokens are read that begin with a proximity: as the longest one, except before a star. -/
structure ReadsLongest (test : Test) (taken rest : List Token) : Prop where
  longest : test.Longest taken rest
  kept : nextIs .star rest = false →
    ∀ scope field qualifier, QualifierWritten scope field qualifier →
      TestRead scope (qualifier ++ (taken ++ rest)) (Body.ofSpan test field) rest
  lost : nextIs .star rest = true →
    ∃ word first behind, taken ++ rest = first :: behind ∧ word.IsOf first ∧
      ∀ scope field qualifier, QualifierWritten scope field qualifier →
        TestRead scope (qualifier ++ (taken ++ rest)) (.test (.term word field none)) behind
  plainTree : ∀ arrangement scope,
    ((Body.ofSpan test none).toNode arrangement scope).kind = .form scope .proximity
  fieldTree : ∀ settings : Settings, settings.mode.dialect = .full → ∀ field,
    (Body.ofSpan test (some field)).toNode (Arrangement.ofSettings settings) .query =
        settings.soleInField field test ∧
      (test.toNode .fieldGroup).kind = .form .fieldGroup .proximity

theorem kind_toNode_of_proximity (written : Test.ProximityWritten test taken) (scope : Scope) :
    (test.toNode scope).kind = .form scope .proximity := by
  cases written
  rfl

/-- Wherever a test begins with a proximity, be it after a sign, in a field or in a field group, it
is the longest one that is there, and the reading goes on behind it. This fails exactly if a star
comes next: the test is the first word then, and the reading goes on before the first star. -/
theorem proximity_reads_longest {tokens : List Token}
    (begins : ∃ test front behind, tokens = front ++ behind ∧ Test.ProximityWritten test front) :
    ∃ test taken rest, tokens = taken ++ rest ∧ ReadsLongest test taken rest := by
  obtain ⟨shorter, front, behind, rfl, written⟩ := begins
  obtain ⟨test, taken, rest, split, longest⟩ := written.exists_longest behind
  have kind := kind_toNode_of_proximity longest.written
  refine ⟨test, taken, rest, split, longest, ?kept, exists_testRead_of_star longest, ?plain, ?field⟩
  case kept =>
    intro noStar scope field qualifier qualifierWritten
    exact testRead_of_longest longest noStar qualifierWritten
  case plain =>
    intro arrangement scope
    exact kind scope
  case field =>
    intro settings _ field
    refine ⟨?_, kind .fieldGroup⟩
    rw [Body.ofSpan, Body.toNode_fieldSpan]

/-- The words `a * b *(2) not ~c`: the shorter proximity `a * b` is not what is read. -/
theorem longest_of_three_words :
    let tokens : List Token :=
      [⟨.id, "a", 0, 1⟩, ⟨.star, "*", 2, 3⟩, ⟨.id, "b", 4, 5⟩, ⟨.star, "*", 6, 7⟩,
        ⟨.lparen, "(", 7, 8⟩, ⟨.integer, "2", 8, 9⟩, ⟨.rparen, ")", 9, 10⟩, ⟨.not, "not", 11, 14⟩]
    let rest : List Token := [⟨.tilde, "~", 15, 16⟩, ⟨.id, "c", 16, 17⟩]
    let test : Test := .proximity ⟨.id, "a", by decide⟩
      [(none, ⟨.id, "b", by decide⟩), (some ⟨.integer, "2", by decide⟩, ⟨.not, "not", by decide⟩)]
    (∃ shorter, Test.ProximityWritten shorter (tokens.take 3)) ∧ ReadsLongest test tokens rest := by
  intro tokens rest test
  have shorter : Test.ProximityWritten
      (.proximity ⟨.id, "a", by decide⟩ [(none, ⟨.id, "b", by decide⟩)]) (tokens.take 3) :=
    .mk ⟨rfl, rfl⟩ (.cons rfl .absent ⟨rfl, rfl⟩ .nil) (by simp)
  refine ⟨⟨_, shorter⟩, ?_⟩
  obtain ⟨found, taken, behind, split, reads⟩ :=
    proximity_reads_longest ⟨_, tokens.take 3, tokens.drop 3 ++ rest, rfl, shorter⟩
  have evaluated : (Grammar.test .query fun _ => Reading.fail .nestingTooDeep []).run
      (tokens ++ rest) = .ok (.test test, rest) := rfl
  rw [show tokens.take 3 ++ (tokens.drop 3 ++ rest) = tokens ++ rest from rfl] at split
  cases star : nextIs .star behind with
  | true =>
      obtain ⟨word, first, others, _, _, read⟩ := reads.lost star
      have term := (read .query none [] .absent).alone fun _ => Reading.fail .nestingTooDeep []
      rw [List.nil_append, ← split, evaluated] at term
      simp [test] at term
  | false =>
      have kept := (reads.kept star .query none [] .absent).alone
        fun _ => Reading.fail .nestingTooDeep []
      rw [List.nil_append, ← split, evaluated] at kept
      cases kept
      obtain rfl := List.append_cancel_right split
      exact reads

/-- In `a * b *` the proximity `a * b` is given up, and all that is read is single words. -/
theorem longest_lost_before_star :
    let tokens : List Token := [⟨.id, "a", 0, 1⟩, ⟨.star, "*", 2, 3⟩, ⟨.id, "b", 4, 5⟩]
    let rest : List Token := [⟨.star, "*", 6, 7⟩]
    let term (kind : TokenKind) (text : String) : Node :=
      .branch (.form .query .default) [.branch (.form .query .term) [.leaf kind text]]
    (∃ test : Test, test.Longest tokens rest ∧ ∀ operands,
      (Grammar.test .query operands).run (tokens ++ rest) ≠ .ok (.test test, rest)) ∧
    parseTokens .standard (tokens ++ rest) = .ok (.branch (.form .query .conjunction)
      [term .id "a", term .star "*", term .id "b", term .star "*"]) := by
  intro tokens rest term
  have written : Test.ProximityWritten
      (.proximity ⟨.id, "a", by decide⟩ [(none, ⟨.id, "b", by decide⟩)]) tokens :=
    .mk ⟨rfl, rfl⟩ (.cons rfl .absent ⟨rfl, rfl⟩ .nil) (by simp)
  refine ⟨⟨_, ⟨written, ?longest⟩, ?lost⟩, rfl⟩
  case longest =>
    intro other longer behind split otherWritten
    have lengths := congrArg List.length split
    rw [List.length_append, List.length_append] at lengths
    cases behind with
    | cons token behind =>
        rw [List.length_cons, show rest.length = 1 from rfl] at lengths
        omega
    | nil =>
        -- A proximity ends with a word, and the last token is a star.
        obtain ⟨front, joint, word, same, _, isWord⟩ := otherWritten.endsStep
        rw [List.append_nil, same] at split
        have last := congrArg List.getLast? split
        simp [tokens, rest] at last
        rw [last] at isWord
        exact absurd isWord (by decide)
  case lost =>
    intro operands
    simp [show (Grammar.test .query operands).run (tokens ++ rest) =
      .ok (.test (.term ⟨.id, "a", by decide⟩ none none), tokens.tail ++ rest) from rfl]

end Grammar

end SearchQuery
