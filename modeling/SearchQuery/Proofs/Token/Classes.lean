import SearchQuery.Proofs.Token.Languages
set_option autoImplicit false

/-!
# Word classes

The grammars of the kinds of words. Every text is in the language of exactly one kind, and that is
the kind that the scan gives it.
-/

open Computability

namespace SearchQuery

namespace Word

/-- The language of a kind of words that has a form of its own. -/
def form : TokenKind → Language Char
  | .and => spellings ['a', 'n', 'd']
  | .or => spellings ['o', 'r']
  | .not => spellings ['n', 'o', 't']
  | .upTo => spellings ['t', 'o']
  | .id => identifiers - keywords
  | .integer => digits
  | .float => floats
  | .prefixWord => prefixPatterns
  | .wildWord => patterns - prefixPatterns
  | _ => 0

/-- The language of a kind of words. Plain words are what has no other form. -/
def grammar : TokenKind → Language Char
  | .word => {text | ∀ kind, text ∉ form kind}
  | kind => form kind

theorem digit_disjoint {character : Char} (digital : character ∈ digit) :
    character ∉ letter ∪ {'_'} := by
  rintro ((⟨low, _⟩ | ⟨low, _⟩) | rfl)
  · exact absurd (low.trans digital.2) (by decide)
  · exact absurd (low.trans digital.2) (by decide)
  · exact absurd digital.2 (by decide)

theorem mem_form_of_keyword {text : List Char} {kind : TokenKind} (found : keyword? text = some kind) :
    text ∈ form kind := by
  rw [keyword?_eq] at found
  split_ifs at found <;> cases found <;> assumption

def Ordinary (language : Language Char) : Prop :=
  Over {'\\', '*', '?'}ᶜ language

theorem classify_of_ordinary {language : Language Char} (ordinary : Ordinary language)
    {text : List Char} (member : text ∈ language) : classify text = classifyPlain text := by
  have tame : ¬ 0 < (unescaped text).countP isWildcard := by
    rw [countP_unescaped_pos_iff]
    rintro ⟨position, _, star | mark⟩
    · exact absurd (ordinary text member '*' (List.mem_of_getElem? star)) (by simp)
    · exact absurd (ordinary text member '?' (List.mem_of_getElem? mark)) (by simp)
  have unescaped : text.contains '\\' = false := by
    rw [Bool.eq_false_iff]
    intro backslash
    exact absurd (ordinary text member '\\' (by simpa using backslash)) (by simp)
  simp only [classify, unescaped]
  grind

theorem digit_tame : digit ⊆ {'\\', '*', '?'}ᶜ := by
  rintro _ digital (rfl | rfl | rfl) <;> simp [digit] at digital

theorem letter_tame : letter ⊆ {'\\', '*', '?'}ᶜ := by
  rintro _ lettered (rfl | rfl | rfl) <;> simp [letter] at lettered

theorem ordinary_digits : Ordinary digits :=
  over_digits.mono digit_tame

theorem ordinary_floats : Ordinary floats := by
  have signs (part : Set Char) (tame : part ⊆ {'\\', '*', '?'}ᶜ) : Ordinary (oneOf part) :=
    Over.oneOf.mono tame
  refine .mul (.mul ordinary_digits (.mul (signs _ ?_) ordinary_digits))
    (.add .one (.mul (signs _ ?_) (.mul (.add .one (signs _ ?_)) ordinary_digits))) <;>
  simp [Set.subset_def]

theorem ordinary_identifiers : Ordinary identifiers := by
  have marks : ({'_', '$', '#'} : Set Char) ⊆ {'\\', '*', '?'}ᶜ := by simp [Set.subset_def]
  have inner : Ordinary (oneOf (letter ∪ digit ∪ {'_', '$', '#'}))∗ := by
    intro text member character inside
    rcases mem_kstar_oneOf.mp member character inside with (lettered | digital) | marked
    · exact letter_tame lettered
    · exact digit_tame digital
    · exact marks marked
  refine .mul (Over.oneOf.mono (Set.union_subset letter_tame ?_)) inner
  simp

/-- A name begins with no digit, so it is no number. -/
theorem classify_of_identifier {text : List Char} (member : text ∈ identifiers) :
    classify text = (keyword? text).getD .id := by
  have isName : isIdentifier text = true := isIdentifier_iff.mpr member
  rw [classify_of_ordinary ordinary_identifiers member, classifyPlain, isName]
  cases text with
  | nil => exact absurd member nil_notMem_oneOf_mul
  | cons first rest =>
      have starts := (cons_mem_oneOf_mul.mp member).1
      have undigital : first ∉ digit := fun digital => digit_disjoint digital starts
      have noInteger : isInteger (first :: rest) = false := by
        rw [Bool.eq_false_iff, ne_eq, isInteger_iff]
        simp [digits, undigital]
      have noFloat : isFloat (first :: rest) = false := by
        rw [Bool.eq_false_iff, ne_eq, isFloat_iff]
        simp [floats, decimals, digits, mul_assoc, undigital]
      rw [noInteger, noFloat]
      rfl

theorem classify_of_spelling {text word : List Char} {kind : TokenKind}
    (small : ∀ character ∈ word, 'a' ≤ character ∧ character ≤ 'z') (filled : word ≠ [])
    (found : keyword? text = some kind) (member : text ∈ spellings word) :
    classify text = kind := by
  have lettered := over_spellings small text member
  have named : text ∈ identifiers := by
    cases text with
    | nil => exact absurd member.symm filled
    | cons first rest =>
        have ⟨starts, continues⟩ := List.forall_mem_cons.mp lettered
        simp only [identifiers, cons_mem_oneOf_mul, mem_kstar_oneOf]
        exact ⟨.inl starts, fun character inside => .inl (.inl (continues character inside))⟩
  rw [classify_of_identifier named, found]
  rfl

/-- A number with a point in it is no integer. -/
theorem classify_of_float {text : List Char} (member : text ∈ floats) : classify text = .float := by
  have noInteger : isInteger text = false := by
    rw [Bool.eq_false_iff, ne_eq, isInteger_iff]
    intro integral
    obtain ⟨_, ⟨_, _, _, ⟨_, ⟨_, rfl, rfl⟩, _, _, rfl⟩, rfl⟩, _, _, rfl⟩ := member
    exact absurd (over_digits _ integral '.' (by simp)) (by simp [digit])
  rw [classify_of_ordinary ordinary_floats member, classifyPlain, noInteger,
    isFloat_iff.mpr member]
  rfl

theorem mem_prefixPatterns_iff {text : List Char} :
    text ∈ prefixPatterns ↔ ((unescaped text).countP isWildcard = 1 && endsInStar text &&
      1 < text.length) = true := by
  have unfolded : text ∈ prefixPatterns ↔
      1 < text.length ∧ text.getLast? = some '*' ∧ WildAtEnd text := Iff.rfl
  rw [unfolded, ← single_star_iff, and_comm]
  simp

theorem mem_form_classify {text : List Char} (special : classify text ≠ .word) :
    text ∈ form (classify text) := by
  revert special
  simp only [classify]
  split_ifs with star wild escape
  · exact fun _ => mem_prefixPatterns_iff.mpr star
  · exact fun _ => ⟨countP_unescaped_pos_iff.mp wild, mt mem_prefixPatterns_iff.mp star⟩
  · exact fun special => absurd rfl special
  · unfold classifyPlain
    split_ifs with integral fractional named
    · exact fun _ => isInteger_iff.mp integral
    · exact fun _ => isFloat_iff.mp fractional
    · intro _
      cases found : keyword? text with
      | some kind => exact mem_form_of_keyword found
      | none => exact ⟨isIdentifier_iff.mp named, keyword?_eq_none_iff.mp found⟩
    · exact fun special => absurd rfl special

theorem classify_of_mem_form {text : List Char} {kind : TokenKind} (member : text ∈ form kind) :
    classify text = kind := by
  cases kind with
  | and | or | not | upTo =>
      refine classify_of_spelling (by simp) (List.cons_ne_nil _ _) ?_ member
      rw [keyword?_eq, show text.map Char.toLower = _ from member]
      rfl
  | id =>
      rw [classify_of_identifier member.1, keyword?_eq_none_iff.mpr member.2]
      rfl
  | integer =>
      rw [classify_of_ordinary ordinary_digits member, classifyPlain, isInteger_iff.mpr member]
      rfl
  | float => exact classify_of_float member
  | prefixWord => exact if_pos (mem_prefixPatterns_iff.mp member)
  | wildWord =>
      obtain ⟨wild, more⟩ := member
      exact (if_neg (mt mem_prefixPatterns_iff.mpr more)).trans
        (if_pos (countP_unescaped_pos_iff.mpr wild))
  | _ => exact absurd member (Language.notMem_zero text)

theorem classify_eq_iff {text : List Char} {kind : TokenKind} :
    classify text = kind ↔ text ∈ grammar kind := by
  constructor
  · rintro rfl
    cases special : classify text with
    | word =>
        rintro kind member
        rw [classify_of_mem_form member] at special
        subst special
        exact Language.notMem_zero text member
    | _ =>
        have member : text ∈ form (classify text) := mem_form_classify (by simp [special])
        rwa [special] at member
  · intro member
    cases kind with
    | word =>
        by_contra special
        exact member _ (mem_form_classify special)
    | _ => exact classify_of_mem_form member

end Word

namespace Lexer

theorem Cuts.kind_eq_classify {characters : List Char} {piece : Piece}
    (cuts : Cuts characters piece) (word : piece.kind.isWord = true) :
    piece.kind = Word.classify piece.text := by
  cases cuts with
  | phrase | uri | ampAmp | barBar | dotDot | star | questionMark => cases word
  | symbol symbol =>
      rw [symbol?_not_isWord symbol] at word
      cases word
  | word _ taken => exact kind_of_wordPiece taken

theorem Scans.kind_eq_classify {offset : Nat} {characters : List Char} {tokens : List Token}
    (scans : Scans offset characters (.ok tokens)) :
    ∀ token ∈ tokens, token.kind.isWord = true →
      token.kind = Word.classify token.text.toList := by
  induction scans using Scans.accepted_induction with
  | done => simp
  | blank _ _ ih => exact ih
  | @token offset character rest piece others _ taken _ ih =>
      refine List.forall_mem_cons.mpr ⟨fun word => ?_, ih⟩
      rw [piece.toList_text_token]
      exact (cuts_of_cut taken).kind_eq_classify word

end Lexer

/-- A word of a query is of the one kind whose language its text is in. -/
theorem kind_eq_iff_mem_grammar {query : String} {tokens : List Token}
    (cut : tokenize query = .ok tokens) {token : Token} (member : token ∈ tokens)
    (word : token.kind.isWord = true) (kind : TokenKind) :
    token.kind = kind ↔ token.text.toList ∈ Word.grammar kind := by
  rw [(tokenize_eq_ok_iff.mp cut).kind_eq_classify token member word]
  exact Word.classify_eq_iff

/-- A keyword, a number and a pattern whose first star is escaped. -/
theorem grammar_of_mixed_words :
    tokenize "Not 1.5e-3 é\\**" =
        .ok [⟨.not, "Not", 0, 3⟩, ⟨.float, "1.5e-3", 4, 10⟩, ⟨.prefixWord, "é\\**", 11, 16⟩] ∧
      "Not".toList ∉ Word.grammar .id ∧ "1.5e-3".toList ∈ Word.grammar .float ∧
      "é\\**".toList ∈ Word.grammar .prefixWord := by
  have characters : "Not 1.5e-3 é\\**".toList =
      ['N', 'o', 't', ' ', '1', '.', '5', 'e', '-', '3', ' ', 'é', '\\', '*', '*'] :=
    String.toList_ofList
  have cut : tokenize "Not 1.5e-3 é\\**" =
      .ok [⟨.not, "Not", 0, 3⟩, ⟨.float, "1.5e-3", 4, 10⟩, ⟨.prefixWord, "é\\**", 11, 16⟩] := by
    rw [tokenize, characters]
    rfl
  refine ⟨cut, ?_, ?_, ?_⟩
  · intro member
    cases (kind_eq_iff_mem_grammar cut (.head _) rfl .id).mpr member
  · exact (kind_eq_iff_mem_grammar cut (.tail _ (.head _)) rfl .float).mp rfl
  · exact (kind_eq_iff_mem_grammar cut (.tail _ (.tail _ (.head _))) rfl .prefixWord).mp rfl

end SearchQuery
