import Mathlib.Computability.Language
import Mathlib.Data.Char
import Mathlib.Data.List.TakeWhile
import Mathlib.Order.Interval.Set.Defs
import SearchQuery.Proofs.Token.Scan
set_option autoImplicit false

/-!
# The languages of words

What words are made of, as languages over characters, and the tests for it. The tests read a text
from its front or split it at the first mark; each one holds of the texts of its language and of no
others.
-/

open Computability

namespace SearchQuery

namespace Word

/-!
## Languages
-/

/-- The texts of one character that is in a set. -/
def oneOf (set : Set Char) : Language Char :=
  {text | ∃ character ∈ set, text = [character]}

def digit : Set Char :=
  Set.Icc '0' '9'

def letter : Set Char :=
  Set.Icc 'a' 'z' ∪ Set.Icc 'A' 'Z'

def digits : Language Char :=
  oneOf digit * (oneOf digit)∗

def decimals : Language Char :=
  digits * (oneOf {'.'} * digits)

/-- Decimals with or without an exponent, which has a minus or no sign. -/
def floats : Language Char :=
  decimals * (1 + oneOf {'e', 'E'} * ((1 + oneOf {'-'}) * digits))

def identifiers : Language Char :=
  oneOf (letter ∪ {'_'}) * (oneOf (letter ∪ digit ∪ {'_', '$', '#'}))∗

/-- The texts that are a word when all capitals are made small. -/
def spellings (word : List Char) : Language Char :=
  {text | text.map Char.toLower = word}

def keywords : Language Char :=
  spellings ['a', 'n', 'd'] + spellings ['o', 'r'] + spellings ['n', 'o', 't'] +
    spellings ['t', 'o']

/-- Texts that end with no open escape: a backslash has a character after it that it escapes. -/
def escaped : Language Char :=
  (oneOf {'\\'}ᶜ + oneOf {'\\'} * oneOf Set.univ)∗

/-- A star or a question mark stands at a position, and no backslash escapes it. -/
def WildAt (text : List Char) (position : Nat) : Prop :=
  text.take position ∈ escaped ∧ (text[position]? = some '*' ∨ text[position]? = some '?')

def patterns : Language Char :=
  {text | ∃ position, WildAt text position}

/-- The last character of a text is an unescaped wildcard, and there is no other one. -/
def WildAtEnd (text : List Char) : Prop :=
  ∀ position, WildAt text position ↔ position + 1 = text.length

/-- Patterns whose only wildcard is a star at the end, with something before it. -/
def prefixPatterns : Language Char :=
  {text | 1 < text.length ∧ text.getLast? = some '*' ∧ WildAtEnd text}

section

variable {set : Set Char} {language : Language Char} {text : List Char}

@[simp] theorem nil_notMem_oneOf_mul : [] ∉ oneOf set * language := by
  rintro ⟨first, ⟨character, _, rfl⟩, rest, _, same⟩
  cases same

@[simp] theorem cons_mem_oneOf_mul {character : Char} :
    character :: text ∈ oneOf set * language ↔ character ∈ set ∧ text ∈ language := by
  constructor
  · rintro ⟨first, ⟨character, member, rfl⟩, rest, later, same⟩
    cases same
    exact ⟨member, later⟩
  · rintro ⟨member, later⟩
    exact ⟨[character], ⟨character, member, rfl⟩, text, later, rfl⟩

theorem mem_kstar_iff : text ∈ language∗ ↔ text = [] ∨ text ∈ language * language∗ := by
  rw [← Language.mem_one, ← Language.mem_add, Language.one_add_self_mul_kstar_eq_kstar]

@[simp] theorem mem_kstar_oneOf : text ∈ (oneOf set)∗ ↔ ∀ character ∈ text, character ∈ set := by
  induction text with
  | nil => simp [Language.nil_mem_kstar]
  | cons character text ih => rw [mem_kstar_iff]; simp [ih]

def Over (set : Set Char) (language : Language Char) : Prop :=
  ∀ text ∈ language, ∀ character ∈ text, character ∈ set

namespace Over

variable {part : Set Char} {other : Language Char}

theorem mono (inner : Over part language) (subset : part ⊆ set) : Over set language :=
  fun text member character inside => subset (inner text member character inside)

theorem one : Over set 1 := by
  rintro _ rfl
  simp

theorem oneOf : Over set (oneOf set) := by
  rintro _ ⟨character, member, rfl⟩
  simpa using member

theorem add (left : Over set language) (right : Over set other) : Over set (language + other) := by
  rintro text (member | member)
  · exact left text member
  · exact right text member

theorem mul (left : Over set language) (right : Over set other) : Over set (language * other) := by
  intro text member
  obtain ⟨before, early, after, late, rfl⟩ := Language.mem_mul.mp member
  exact List.forall_mem_append.mpr ⟨left before early, right after late⟩

end Over

end

/-!
## Numbers and names
-/

@[simp] theorem isDigit_iff {character : Char} : isDigit character = true ↔ character ∈ digit := by
  simp [isDigit, digit]

@[simp] theorem isInteger_iff {text : List Char} : isInteger text = true ↔ text ∈ digits := by
  cases text <;> simp [isInteger, digits]

theorem isIdentifier_iff {text : List Char} : isIdentifier text = true ↔ text ∈ identifiers := by
  cases text <;>
    simp [isIdentifier, identifiers, startsIdentifier, continuesIdentifier, isLetter, letter,
      or_assoc, or_comm, or_left_comm]

/-- A text with no mark in it that stands before a mark reaches up to the first one. -/
theorem mem_mul_mark_iff {front back : Language Char} {marks : Set Char} {other : Char → Bool}
    (others : ∀ character, other character = true ↔ character ∉ marks)
    (unmarked : ∀ text ∈ front, ∀ character ∈ text, character ∉ marks) {text : List Char} :
    text ∈ front * (oneOf marks * back) ↔
      text.takeWhile other ∈ front ∧
        ∃ mark after, text.dropWhile other = mark :: after ∧ after ∈ back := by
  constructor
  · intro member
    obtain ⟨before, early, rest, later, rfl⟩ := Language.mem_mul.mp member
    have passed : ∀ character ∈ before, other character = true := fun character member =>
      (others character).mpr (unmarked before early character member)
    cases rest with
    | nil => exact absurd later nil_notMem_oneOf_mul
    | cons mark after =>
        obtain ⟨marked, late⟩ := cons_mem_oneOf_mul.mp later
        have stops : ¬ other mark = true := fun passes => (others mark).mp passes marked
        rw [List.takeWhile_append_of_pos passed, List.dropWhile_append_of_pos passed,
          List.takeWhile_cons_of_neg stops, List.dropWhile_cons_of_neg stops, List.append_nil]
        exact ⟨early, mark, after, rfl, late⟩
  · rintro ⟨early, mark, after, rest, late⟩
    have marked : mark ∈ marks := by
      have stops := List.head_dropWhile_not (l := text) other (by rw [rest]; simp)
      simp only [rest, List.head_cons] at stops
      by_contra unmarked
      rw [(others mark).mpr unmarked] at stops
      cases stops
    have later := Language.append_mem_mul early (cons_mem_oneOf_mul.mpr ⟨marked, late⟩)
    rwa [← rest, List.takeWhile_append_dropWhile] at later

theorem over_digits : Over digit digits :=
  .mul .oneOf fun _ => mem_kstar_oneOf.mp

theorem over_decimals : Over (digit ∪ {'.'}) decimals :=
  have integral := over_digits.mono Set.subset_union_left
  .mul integral (.mul (.mono .oneOf Set.subset_union_right) integral)

theorem isDecimal_iff {text : List Char} : isDecimal text = true ↔ text ∈ decimals := by
  have others (character : Char) : (character != '.') = true ↔ character ∉ ({'.'} : Set Char) := by
    simp
  have pointless : ∀ text ∈ digits, ∀ character ∈ text, character ∉ ({'.'} : Set Char) := by
    rintro text member _ inside rfl
    exact absurd (over_digits text member '.' inside) (by simp [digit])
  rw [decimals, mem_mul_mark_iff others pointless, isDecimal]
  cases rest : text.dropWhile (· != '.') <;> simp

theorem exponent_iff {text : List Char} :
    text ∈ (1 + oneOf {'-'}) * digits ↔
      match text with
      | '-' :: exponent => isInteger exponent = true
      | exponent => isInteger exponent = true := by
  rw [add_mul, one_mul, Language.mem_add]
  split
  · next exponent =>
      have signed : '-' :: exponent ∉ digits := by simp [digits, digit]
      simp [signed]
  · next unsigned =>
      have unsigned : text ∉ oneOf {'-'} * digits := by
        cases text with
        | nil => simp
        | cons first rest =>
            rintro member
            obtain ⟨rfl, _⟩ := cons_mem_oneOf_mul.mp member
            exact unsigned rest rfl
      simp [unsigned]

theorem isFloat_iff {text : List Char} : isFloat text = true ↔ text ∈ floats := by
  have others (character : Char) :
      (!isExponentMark character) = true ↔ character ∉ ({'e', 'E'} : Set Char) := by
    simp [isExponentMark]
  have unmarked : ∀ text ∈ decimals, ∀ character ∈ text, character ∉ ({'e', 'E'} : Set Char) := by
    rintro text member _ inside (rfl | rfl) <;>
      exact absurd (over_decimals text member _ inside) (by simp [digit])
  rw [floats, mul_add, mul_one, Language.mem_add, mem_mul_mark_iff others unmarked, isFloat,
    Bool.and_eq_true, isDecimal_iff]
  cases rest : text.dropWhile (!isExponentMark ·) with
  | nil =>
      have whole : text.takeWhile (!isExponentMark ·) = text := by
        have joined := List.takeWhile_append_dropWhile (p := (!isExponentMark ·)) (l := text)
        rwa [rest, List.append_nil] at joined
      simp [whole]
  | cons mark after =>
      have noDecimal : text ∉ decimals := by
        intro member
        have passed := List.dropWhile_eq_nil_iff.mpr fun character inside =>
          (others character).mpr (unmarked text member character inside)
        rw [rest] at passed
        cases passed
      have exponents : after ∈ (1 + oneOf {'-'}) * digits ↔ _ := exponent_iff
      simp only [noDecimal, false_or]
      split <;> grind

/-!
## Keywords
-/

theorem lower_eq_toLower (character : Char) : lower character = character.toLower := by
  have range : ('A' ≤ character && character ≤ 'Z') = true ↔
      character.val ≥ 'A'.val ∧ character.val ≤ 'Z'.val := by
    rw [Bool.and_eq_true, decide_eq_true_eq, decide_eq_true_eq]
    rfl
  unfold lower Char.toLower
  by_cases capital : character.val ≥ 'A'.val ∧ character.val ≤ 'Z'.val
  · rw [if_pos (range.mpr capital), dif_pos capital]
    have high : character.toNat ≤ 90 := capital.2
    have valid : (character.toNat + 32).isValidChar := .inl (by omega)
    have small : character.val.toNat + 32 = (character.val + 32).toNat := by
      rw [UInt32.toNat_add, Char.toNat_val]
      simp
      omega
    rw [Char.ofNat, dif_pos valid]
    exact Char.ext (UInt32.toNat_inj.mp small)
  · rw [if_neg (mt range.mp capital), dif_neg capital]

theorem mem_letter_of_toLower {character : Char} (small : character.toLower ∈ Set.Icc 'a' 'z') :
    character ∈ letter := by
  rw [← lower_eq_toLower, lower] at small
  split at small
  · next capital => exact .inr (by simpa using capital)
  · exact .inl small

theorem over_spellings {word : List Char}
    (small : ∀ character ∈ word, 'a' ≤ character ∧ character ≤ 'z') :
    Over letter (spellings word) := by
  intro text member character inside
  have same : text.map Char.toLower = word := member
  refine mem_letter_of_toLower (small _ ?_)
  rw [← same]
  exact List.mem_map_of_mem inside

theorem keyword?_eq (text : List Char) :
    keyword? text =
      if text.map Char.toLower = ['a', 'n', 'd'] then some .and
      else if text.map Char.toLower = ['o', 'r'] then some .or
      else if text.map Char.toLower = ['n', 'o', 't'] then some .not
      else if text.map Char.toLower = ['t', 'o'] then some .upTo
      else none := by
  have spelled (word : List Char) (small : word.map lower = word) :
      eqIgnoringCase text word = true ↔ text.map Char.toLower = word := by
    rw [eqIgnoringCase, small, funext lower_eq_toLower, beq_iff_eq]
  simp only [keyword?, spelled ['a', 'n', 'd'] rfl, spelled ['o', 'r'] rfl,
    spelled ['n', 'o', 't'] rfl, spelled ['t', 'o'] rfl]

theorem keyword?_eq_none_iff {text : List Char} : keyword? text = none ↔ text ∉ keywords := by
  have unfolded : text ∈ keywords ↔
      ((text.map Char.toLower = ['a', 'n', 'd'] ∨ text.map Char.toLower = ['o', 'r']) ∨
        text.map Char.toLower = ['n', 'o', 't']) ∨ text.map Char.toLower = ['t', 'o'] := Iff.rfl
  rw [keyword?_eq, unfolded]
  grind

/-!
## Wildcards
-/

section

variable {text : List Char} {character escape : Char} {position : Nat}

theorem mem_escaped_iff :
    text ∈ escaped ↔ text = [] ∨ text ∈ oneOf {'\\'}ᶜ * escaped ∨
      text ∈ oneOf {'\\'} * (oneOf Set.univ * escaped) := by
  rw [escaped, mem_kstar_iff, add_mul, mul_assoc, Language.mem_add]

@[simp] theorem nil_mem_escaped : [] ∈ escaped :=
  Language.nil_mem_kstar _

theorem cons_mem_escaped (plain : character ≠ '\\') :
    character :: text ∈ escaped ↔ text ∈ escaped := by
  rw [mem_escaped_iff]
  simp [plain]

@[simp] theorem escape_mem_escaped : '\\' :: escape :: text ∈ escaped ↔ text ∈ escaped := by
  rw [mem_escaped_iff]
  simp

@[simp] theorem backslash_notMem_escaped : ['\\'] ∉ escaped := by
  rw [mem_escaped_iff]
  simp

@[simp] theorem not_wildAt_nil : ¬ WildAt [] position := by
  simp [WildAt]

@[simp] theorem not_wildAt_backslash : ¬ WildAt ['\\'] position := by
  cases position <;> simp [WildAt]

@[simp] theorem wildAt_zero : WildAt (character :: text) 0 ↔ isWildcard character = true := by
  simp [WildAt, isWildcard]

theorem wildAt_succ (plain : character ≠ '\\') :
    WildAt (character :: text) (position + 1) ↔ WildAt text position := by
  simp [WildAt, cons_mem_escaped plain]

@[simp] theorem not_wildAt_one : ¬ WildAt ('\\' :: escape :: text) 1 := by
  simp [WildAt]

@[simp] theorem wildAt_escape :
    WildAt ('\\' :: escape :: text) (position + 2) ↔ WildAt text position := by
  simp [WildAt]

end

/-- Induction on a text in the steps in which its escapes are read. -/
@[elab_as_elim]
theorem escape_induction {motive : List Char → Prop} (text : List Char)
    (nil : motive []) (backslash : motive ['\\'])
    (escape : ∀ character rest, motive rest → motive ('\\' :: character :: rest))
    (plain : ∀ character rest, character ≠ '\\' → motive rest → motive (character :: rest)) :
    motive text := by
  induction text using unescaped.induct with
  | case1 => exact nil
  | case2 => exact backslash
  | case3 character rest ih => exact escape character rest ih
  | case4 character rest notLast notEscape ih =>
      exact plain character rest (Lexer.ne_backslash notLast notEscape) ih

@[simp] theorem unescaped_nil : unescaped [] = [] := rfl

@[simp] theorem unescaped_backslash : unescaped ['\\'] = [] := rfl

@[simp] theorem unescaped_escape (character : Char) (rest : List Char) :
    unescaped ('\\' :: character :: rest) = unescaped rest := rfl

theorem countP_unescaped_cons {character : Char} {rest : List Char} (plain : character ≠ '\\') :
    (unescaped (character :: rest)).countP isWildcard =
      (unescaped rest).countP isWildcard + if isWildcard character then 1 else 0 := by
  rw [unescaped, List.countP_cons] <;> grind

theorem countP_unescaped_pos_iff {text : List Char} :
    0 < (unescaped text).countP isWildcard ↔ ∃ position, WildAt text position := by
  induction text using escape_induction with
  | nil | backslash => simp
  | escape character rest ih =>
      rw [← Nat.or_exists_add_one, ← Nat.or_exists_add_one]
      simpa [isWildcard] using ih
  | plain character rest plain ih =>
      rw [countP_unescaped_cons plain, ← Nat.or_exists_add_one]
      simp only [wildAt_zero, wildAt_succ plain, ← ih]
      split <;> simp [*]

theorem endsInStar_singleton {character : Char} :
    endsInStar [character] = true ↔ character = '*' := by
  rw [endsInStar.eq_def]
  grind [endsInStar]

theorem endsInStar_cons {character next : Char} {rest : List Char} (plain : character ≠ '\\') :
    endsInStar (character :: next :: rest) = endsInStar (next :: rest) := by
  rw [endsInStar.eq_def]
  grind

@[simp] theorem endsInStar_escape (character : Char) (rest : List Char) :
    endsInStar ('\\' :: character :: rest) = endsInStar rest := rfl

theorem endsInStar_pos {text : List Char} (ends : endsInStar text = true) :
    0 < (unescaped text).countP isWildcard := by
  induction text using escape_induction with
  | nil | backslash => cases ends
  | escape character rest ih => exact ih ends
  | plain character rest plain ih =>
      rw [countP_unescaped_cons plain]
      cases rest with
      | nil =>
          obtain rfl := endsInStar_singleton.mp ends
          decide
      | cons next rest =>
          rw [endsInStar_cons plain] at ends
          exact Nat.lt_add_right _ (ih ends)

theorem wildAtEnd_cons {character : Char} {text : List Char} (plain : character ≠ '\\') :
    WildAtEnd (character :: text) ↔ (isWildcard character = true ↔ text = []) ∧ WildAtEnd text := by
  have first : 0 + 1 = (character :: text).length ↔ text = [] := by cases text <;> simp
  rw [WildAtEnd, ← Nat.and_forall_add_one, WildAtEnd, first]
  simp [wildAt_succ plain]

theorem wildAtEnd_escape {escape : Char} {text : List Char} :
    WildAtEnd ('\\' :: escape :: text) ↔ text ≠ [] ∧ WildAtEnd text := by
  constructor
  · intro wild
    refine ⟨?_, fun position => by simpa using wild (position + 2)⟩
    rintro rfl
    exact not_wildAt_one ((wild 1).mpr rfl)
  · rintro ⟨filled, wild⟩ (_ | _ | position)
    · simp [isWildcard]
    · simpa using Ne.symm filled
    · simpa using wild position

theorem single_star_iff {text : List Char} :
    (unescaped text).countP isWildcard = 1 ∧ endsInStar text = true ↔
      text.getLast? = some '*' ∧ WildAtEnd text := by
  induction text using escape_induction with
  | nil | backslash => simp
  | escape character rest ih =>
      rw [unescaped_escape, endsInStar_escape, ih, wildAtEnd_escape]
      cases rest with
      | nil => simp
      | cons next rest => simp [List.getLast?_cons_cons]
  | plain character rest plain ih =>
      rw [countP_unescaped_cons plain, wildAtEnd_cons plain]
      cases rest with
      | nil =>
          rw [endsInStar_singleton]
          constructor
          · rintro ⟨_, rfl⟩
            exact ⟨rfl, by decide, by simp [WildAtEnd]⟩
          · rintro ⟨star, _⟩
            obtain rfl : character = '*' := by simpa using star
            decide
      | cons next rest =>
          rw [endsInStar_cons plain, List.getLast?_cons_cons]
          cases wild : isWildcard character with
          | true =>
              refine iff_of_false (fun ⟨single, ends⟩ => ?_) (by simp)
              have more := endsInStar_pos ends
              rw [if_pos rfl] at single
              omega
          | false => simpa using ih

end Word

end SearchQuery
