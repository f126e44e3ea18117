import SearchQuery.Proofs.Completion.Tests
import SearchQuery.Proofs.Written.Operands
set_option autoImplicit false

/-!
# Every start can be gone on from

Whatever token an operand can begin with by its kind, some tokens behind it complete an operand. One
is read from them wherever two levels are left; the second is for what an opening parenthesis
encloses.
-/

namespace SearchQuery

open Reading Grammar

/-- What a name is where a field is named, and where a term is. -/
def FieldReference.anyName : FieldReference :=
  ⟨none, ⟨.id, "", by decide⟩⟩

def Test.anyName : Test :=
  .term ⟨.id, "", by decide⟩ none none

variable {scope : Scope} {first : Token}

theorem FieldReference.anyName_bare : FieldReference.anyName.Bare [Token.anyName] :=
  .plain (Token.anyName_isOf (by decide))

theorem Test.anyName_written : Test.anyName.Written scope [Token.anyName] :=
  .term .absent (Token.anyName_isOf (by decide)) .absent

/-- Behind a token, tokens can follow that make up what an operand applies to. -/
def Token.BeginsBody (scope : Scope) (first : Token) : Prop :=
  ∃ body rest, Part.Written scope (.body body) (first :: rest) ∧
    (body.beginsWithNot = true → first.kind = .not) ∧
    ∀ levels, Part.Explicit (levels + 1) (.body body)

theorem Test.Written.beginsBody {test : Test} {rest : List Token}
    (written : test.Written scope (first :: rest))
    (unsigned : test.beginsWithNot = true → first.kind = .not) : first.BeginsBody scope :=
  ⟨.test test, rest, .test written, unsigned, fun _ => .test⟩

theorem FieldReference.Qualifying.beginsBody {field : FieldReference} {rest : List Token}
    (qualifying : field.Qualifying (first :: rest)) : first.BeginsBody .query := by
  have written : Test.Written .query _ (first :: rest ++ Token.anyName :: []) :=
    .term (.present qualifying) (Token.anyName_isOf (by decide)) .absent
  exact written.beginsBody nofun

theorem mem_testStarts_cases {kind : TokenKind} (starts : kind ∈ testStarts scope) :
    kind ∈ TokenKind.termWords ∨ kind ∈ [.phrase, .equals, .tilde, .lsquare, .lt, .lparen] ∨
      scope = .query ∧ kind ∈ [.atSign, .uri, .percent] := by
  cases scope with
  | query =>
      rcases List.mem_append.mp starts with word | other
      · exact .inl word
      · refine .inr ?_
        simpa [or_assoc] using other
  | fieldGroup => exact (List.mem_append.mp starts).imp_right .inl

theorem Token.beginsBody_of_word (word : first.kind ∈ TokenKind.termWords) :
    first.BeginsBody scope := by
  have written : Test.Written scope (.term ⟨first.kind, first.text, word⟩ none none)
      ([] ++ first :: []) := .term .absent ⟨rfl, rfl⟩ .absent
  exact written.beginsBody fun beginsNot => by simpa [Test.beginsWithNot] using beginsNot

theorem Token.beginsBody_of_bracket (lower : Closure) (opens : first.kind = lower.opening) :
    first.BeginsBody scope := by
  -- A range between two names.
  have written : Test.RangeWritten _
      [first, Token.anyName, .ofKind .upTo, Token.anyName, .ofKind .rsquare] :=
    .bracketed opens (Token.anyName_isOf (by decide)) rfl (Token.anyName_isOf (by decide))
      (show TokenKind.rsquare = Closure.inclusive.closing from rfl)
  exact (Test.Written.span (.range written)).beginsBody nofun

theorem Token.beginsBody_of_lparen (opens : first.kind = .lparen) : first.BeginsBody scope := by
  have inner : Part.Written scope (.operand (.ofTest .anyName)) [Token.anyName] :=
    .operand .absent (.test Test.anyName_written) .absent
  have all : Part.Written scope (.operands [.ofTest .anyName]) [Token.anyName] :=
    .operands rfl inner .done
  exact ⟨_, _, .group opens all (Token.kind_ofKind .rparen), nofun,
    fun _ => .group (.operands (.operand (fun _ => rfl) .test) .done)⟩

/-- Every start of a test is one. What follows a mark is any name, or is built of names. -/
theorem Token.beginsBody (starts : first.kind ∈ testStarts scope) : first.BeginsBody scope := by
  have member : TokenKind.id ∈ TokenKind.termWords := by decide
  have name := Token.anyName_isOf member
  have colon : (Token.ofKind .colon).kind = .colon := rfl
  rcases mem_testStarts_cases starts with word | mark | ⟨rfl, mark⟩
  · exact beginsBody_of_word word
  · simp only [List.mem_cons, List.not_mem_nil, or_false] at mark
    rcases mark with phrase | equals | tilde | opens | opens | opens
    · have written : Test.Written scope _ ([] ++ first :: []) :=
        .phrase .absent (Token.leaf_isOf first phrase) .absent
      exact written.beginsBody nofun
    · have written : Test.Written scope _ (first :: [] ++ Token.anyName :: []) :=
        .exactTerm equals .absent name .absent
      exact written.beginsBody nofun
    · have written : Test.Written scope _ (first :: [] ++ Token.anyName :: []) :=
        .synonym tilde .absent name .absent
      exact written.beginsBody nofun
    · exact beginsBody_of_bracket .inclusive opens
    · exact beginsBody_of_bracket .exclusive opens
    · exact beginsBody_of_lparen opens
  · simp only [List.mem_cons, List.not_mem_nil, or_false] at mark
    rcases mark with atSign | uri | percent
    · have marked : FieldReference.anyName.Written [first, Token.anyName] :=
        .marked atSign FieldReference.anyName_bare
      exact (FieldReference.Qualifying.mk marked colon).beginsBody
    · have bare : FieldReference.Bare _ [first, Token.anyName] :=
        .nameSpace (Token.leaf_isOf first uri) (Token.anyName_isOf (by decide))
      exact (FieldReference.Qualifying.mk (.bare bare) colon).beginsBody
    · exact (Test.Written.template percent (.bare FieldReference.anyName_bare)).beginsBody nofun

theorem Sign.exists_of_mem_signs {kind : TokenKind} (member : kind ∈ signs) :
    ∃ sign : Sign, sign ≠ .none ∧ kind ∈ sign.kinds := by
  simp only [signs, List.mem_cons, List.not_mem_nil, or_false] at member
  rcases member with rfl | rfl | rfl | rfl | rfl
  · exact ⟨.negation, nofun, by decide⟩
  · exact ⟨.negation, nofun, by decide⟩
  · exact ⟨.mandatory, nofun, by decide⟩
  · exact ⟨.optional, nofun, by decide⟩
  · exact ⟨.exclude, nofun, by decide⟩

/-- Behind every start, tokens can follow that make up an operand, whatever its link is. -/
theorem Token.exists_written (starts : first.kind ∈ operandStarts scope) :
    ∃ sign body rest, ∀ link,
      Part.Written scope (.operand (.mk link sign body none)) (first :: rest) ∧
        ∀ levels, Part.Explicit (levels + 2) (.operand (.mk link sign body none)) := by
  by_cases signed : first.kind ∈ signs
  · obtain ⟨sign, given, member⟩ := Sign.exists_of_mem_signs signed
    refine ⟨sign, .test .anyName, [.anyName], fun link => ⟨?_, fun levels => ?_⟩⟩
    · exact .operand (.present member) (.test Test.anyName_written) .absent
    · exact .operand (fun none => absurd none given) .test
  · have inTest : first.kind ∈ testStarts scope := (List.mem_append.mp starts).resolve_left signed
    obtain ⟨body, rest, written, begins, explicit⟩ := Token.beginsBody inTest
    have unsigned : body.beginsWithNot = false := by
      rw [Bool.eq_false_iff]
      intro beginsNot
      rw [begins beginsNot] at signed
      exact signed (by decide)
    refine ⟨.none, body, rest, fun link => ⟨?_, fun levels => ?_⟩⟩
    · have whole : Part.Written scope (.operand (.mk link .none body none))
          ([] ++ (first :: rest) ++ []) := .operand .absent written .absent
      simpa using whole
    · exact .operand (fun _ => unsigned) (explicit levels)

end SearchQuery
