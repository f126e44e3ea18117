import SearchQuery.Proofs.Spacing.Words
import SearchQuery.Proofs.Token.Languages
import SearchQuery.Proofs.Token.Partition
import SearchQuery.Query
set_option autoImplicit false

/-!
# Where the scan fails

A query that cannot be cut into tokens has one place that is to blame. The text before it can be cut
by itself, and what begins there explains the fault: a quote or an opening brace that nothing
closes, a closing brace, or a backslash that is the last character. It is the first such place, but
that need not be said. A text that can be cut leaves no phrase and no namespace open, so one of the
four signs behind it always stops the scan.
-/

namespace SearchQuery

open Lexer

/-- A quote that no backslash escapes, with escapes being read from the start of the text. -/
def HoldsQuote (text : List Char) : Prop :=
  ∃ inner rest, text = inner ++ '\"' :: rest ∧ inner ∈ Word.escaped

/-- The character that is to blame for a fault, and what follows it. -/
inductive LexFault.BlamedOn : LexFault → List Char → Prop where
  | unclosedPhrase {rest : List Char} : ¬ HoldsQuote rest → BlamedOn .unclosedPhrase ('\"' :: rest)
  | unclosedUri {rest : List Char} : '}' ∉ rest → BlamedOn .unclosedUri ('{' :: rest)
  | strayBrace {rest : List Char} : BlamedOn .strayBrace ('}' :: rest)
  | danglingEscape : BlamedOn .danglingEscape ['\\']

/-!
## What is never closed
-/

theorem holdsQuote_cons {character : Char} {rest : List Char} (plain : character ≠ '\\')
    (noQuote : character ≠ '\"') : HoldsQuote (character :: rest) ↔ HoldsQuote rest := by
  constructor
  · intro holds
    obtain ⟨inner, behind, split, escapes⟩ := holds
    cases inner with
    | nil => exact absurd (List.cons.inj split).1 noQuote
    | cons first inner =>
        obtain ⟨rfl, rfl⟩ := List.cons.inj split
        exact ⟨inner, behind, rfl, (Word.cons_mem_escaped plain).mp escapes⟩
  · intro holds
    obtain ⟨inner, behind, rfl, escapes⟩ := holds
    exact ⟨character :: inner, behind, rfl, (Word.cons_mem_escaped plain).mpr escapes⟩

theorem holdsQuote_escape {escaped : Char} {rest : List Char} :
    HoldsQuote ('\\' :: escaped :: rest) ↔ HoldsQuote rest := by
  constructor
  · intro holds
    obtain ⟨inner, behind, split, escapes⟩ := holds
    match inner with
    | [] => cases split
    | [first] =>
        obtain ⟨rfl, _⟩ := List.cons.inj split
        exact absurd escapes Word.backslash_notMem_escaped
    | first :: second :: inner =>
        cases split
        exact ⟨inner, behind, rfl, Word.escape_mem_escaped.mp escapes⟩
  · intro holds
    obtain ⟨inner, behind, rfl, escapes⟩ := holds
    exact ⟨'\\' :: escaped :: inner, behind, rfl, Word.escape_mem_escaped.mpr escapes⟩

namespace Lexer

theorem closePhrase_eq_none_iff (characters : List Char) :
    closePhrase characters = none ↔ ¬ HoldsQuote characters := by
  fun_induction closePhrase characters with
  | case1 => simp [HoldsQuote]
  | case2 rest =>
      have holds : HoldsQuote ('\"' :: rest) := ⟨[], rest, rfl, Word.nil_mem_escaped⟩
      simp [holds]
  | case3 => simp [HoldsQuote, List.cons_eq_append_iff]
  | case4 escaped rest ih => rw [Option.map_eq_none_iff, ih, holdsQuote_escape]
  | case5 character rest noQuote notLast notEscape ih =>
      rw [Option.map_eq_none_iff, ih, holdsQuote_cons (ne_backslash notLast notEscape) noQuote]

theorem closeUri_eq_none_iff (characters : List Char) :
    closeUri characters = none ↔ '}' ∉ characters := by
  fun_induction closeUri characters with
  | case1 => simp
  | case2 => simp
  | case3 character rest noBrace ih =>
      have other : '}' ≠ character := fun same => noBrace same.symm
      rw [Option.map_eq_none_iff, ih, List.mem_cons, or_iff_right other]

/-!
## Words that a backslash ends
-/

/-- The only fault of a word is a backslash at its end, and without it the word is whole. -/
theorem exists_of_cutWord_eq_error {characters : List Char} {fault : Fault}
    (failed : cutWord characters = .error fault) :
    ∃ word, characters = word ++ ['\\'] ∧ fault = ⟨.danglingEscape, Text.utf8Length word⟩ ∧
      cutWord word = .ok (word, []) := by
  fun_induction cutWord characters generalizing fault with
  | case1 => cases failed
  | case2 =>
      cases failed
      exact ⟨[], rfl, rfl, rfl⟩
  | case3 => cases failed
  | case4 escaped rest inner again ih =>
      cases failed
      obtain ⟨word, rfl, rfl, whole⟩ := ih again
      refine ⟨'\\' :: escaped :: word, rfl, ?_, ?_⟩
      · simp [Fault.shift, Nat.add_assoc]
      · rw [cutWord, whole]
  | case5 => cases failed
  | case6 => cases failed
  | case7 character rest notLast notEscape notDots goesOn inner again ih =>
      cases failed
      obtain ⟨word, rfl, rfl, whole⟩ := ih again
      refine ⟨character :: word, rfl, rfl, ?_⟩
      have single : ∀ more, character :: word ≠ '.' :: '.' :: more := by
        intro more points
        obtain ⟨rfl, rfl⟩ := List.cons.inj points
        exact notDots (more ++ ['\\']) rfl rfl
      rw [cutWord_cons (ne_backslash notLast notEscape) single goesOn, whole]
  | case8 => cases failed

theorem cutWord_append_backslash {characters word : List Char}
    (taken : cutWord characters = .ok (word, [])) :
    cutWord (characters ++ ['\\']) = .error ⟨.danglingEscape, Text.utf8Length characters⟩ := by
  fun_induction cutWord characters generalizing word with
  | case1 => rfl
  | case2 => cases taken
  | case3 escaped rest inner left read ih =>
      cases taken
      rw [List.cons_append, List.cons_append, cutWord, ih read]
      simp [Fault.shift, Nat.add_assoc]
  | case4 => cases taken
  | case5 => cases taken
  | case6 character rest notLast notEscape notDots goesOn inner left read ih =>
      cases taken
      have single : ∀ more, character :: (rest ++ ['\\']) ≠ '.' :: '.' :: more := by
        intro more points
        obtain ⟨rfl, behind⟩ := List.cons.inj points
        cases rest with
        | nil => cases behind
        | cons second rest =>
            obtain ⟨rfl, _⟩ := List.cons.inj behind
            exact notDots rest rfl rfl
      rw [List.cons_append, cutWord_cons (ne_backslash notLast notEscape) single goesOn, ih read]
      rfl
  | case7 => cases taken
  | case8 => cases taken

theorem BeginsWord.cut_eq {character : Char} {rest : List Char}
    (begins : BeginsWord character rest) :
    cut (character :: rest) = wordPiece (character :: rest) := by
  obtain ⟨noBracket, noSymbol, single, wild⟩ := begins
  rw [cut.eq_def]
  split <;> grind [symbol?]

/-!
## Tokens with something else behind them
-/

/-- What stands behind a word or a wildcard may be exchanged for this: no word goes on into it, and
two points that have kept a word short are still there. -/
structure Exchanged (old new : List Char) : Prop where
  stops : wordGoesOn old = false → wordGoesOn new = false
  points : ∀ more, old = '.' :: '.' :: more → ∃ others, new = '.' :: '.' :: others
  point : ∀ more, new = '.' :: more → ∃ others, old = '.' :: others

variable {old new : List Char}

theorem endsWord_of_wordGoesOn (stops : wordGoesOn new = false) : EndsWord new := by
  cases new with
  | nil => exact .atEnd
  | cons character rest => exact .of_continuesWord stops

theorem EndsWord.exchanged (ends : EndsWord old) (exchanged : Exchanged old new) :
    EndsWord new := by
  cases ends with
  | atEnd => exact endsWord_of_wordGoesOn (exchanged.stops rfl)
  | blank white =>
      exact endsWord_of_wordGoesOn (exchanged.stops (by simp [wordGoesOn, continuesWord, white]))
  | delimiter delimits =>
      exact endsWord_of_wordGoesOn
        (exchanged.stops (by simp [wordGoesOn, continuesWord, delimits]))
  | points =>
      obtain ⟨others, rfl⟩ := exchanged.points _ rfl
      exact .points

theorem BeginsWord.exchanged {character : Char} {word : List Char}
    (begins : BeginsWord character (word ++ old)) (ends : EndsWord old)
    (exchanged : Exchanged old new) : BeginsWord character (word ++ new) where
  noBracket := begins.noBracket
  noSymbol := begins.noSymbol
  single := by
    intro more points
    obtain ⟨rfl, behind⟩ := List.cons.inj points
    cases word with
    | nil =>
        obtain ⟨others, rfl⟩ := exchanged.point more behind
        exact begins.single others rfl
    | cons second word =>
        obtain ⟨rfl, _⟩ := List.cons.inj behind
        exact begins.single (word ++ old) rfl
  wild := by
    intro wildcard
    have goesOn := begins.wild wildcard
    cases word with
    | nil =>
        -- A wildcard that is all of the word has two points behind it.
        obtain ⟨more, rfl⟩ := ends.points_of_goesOn goesOn
        obtain ⟨others, rfl⟩ := exchanged.points more rfl
        exact goesOn
    | cons second word => exact goesOn

theorem classify_mem_termWords (word : List Char) :
    Word.classify word ∈ TokenKind.termWords := by
  apply List.mem_append_left
  simpa [TokenKind.isWord] using isWord_classify word

/-- A piece is cut with something else behind it. That matters to words and wildcards, and to signs
that may be doubled. -/
theorem Cuts.exchanged {character : Char} {rest : List Char} {piece : Piece}
    (cuts : Cuts (character :: rest) piece) (dark : Text.isBlank character = false)
    (doubled : ∀ sign ∈ ['&', '|'], new.head? = some sign → piece.rest.head? = some sign)
    (exchanged : piece.kind ∈ TokenKind.termWords → Exchanged piece.rest new) :
    Cuts (piece.text ++ new) { piece with rest := new } := by
  cases cuts with
  | phrase closed => exact .phrase (closePhrase_again closed new)
  | uri closed => exact .uri (closeUri_again closed new)
  | ampAmp => exact .ampAmp
  | barBar => exact .barBar
  | dotDot => exact .dotDot
  | star stops =>
      exact .star ((exchanged (by simp [TokenKind.termWords, TokenKind.wildcards])).stops stops)
  | questionMark stops =>
      exact .questionMark
        ((exchanged (by simp [TokenKind.termWords, TokenKind.wildcards])).stops stops)
  | symbol symbol undoubled =>
      refine .symbol symbol fun doubles again => undoubled doubles ?_
      exact doubled _ (by simpa using doubles) again
  | word begins taken =>
      unfold wordPiece at taken
      split at taken
      · next word left read =>
          cases taken
          have behind := exchanged (classify_mem_termWords word)
          have ends := endsWord_of_cutWord read
          have whole := append_of_cutWord read
          have filled := cutWord_ne_nil (begins.continues dark) begins.single read
          obtain ⟨first, more, rfl⟩ := List.exists_cons_of_ne_nil filled
          rw [List.cons_append] at whole
          obtain ⟨rfl, rfl⟩ := List.cons.inj whole
          have again := cutWord_behind read (ends.exchanged behind) behind.point
          apply Cuts.word (begins.exchanged ends behind)
          rw [← List.cons_append, wordPiece, again]
      · cases taken

/-- The scan takes the same token when something else is behind it, and goes on there. -/
theorem Scans.token_exchanged {offset : Nat} {character : Char} {rest : List Char} {piece : Piece}
    {outcome : Except (LexFault × Nat) (List Token)} (dark : Text.isBlank character = false)
    (taken : cut (character :: rest) = .ok piece)
    (doubled : ∀ sign ∈ ['&', '|'], new.head? = some sign → piece.rest.head? = some sign)
    (exchanged : piece.kind ∈ TokenKind.termWords → Exchanged piece.rest new)
    (later : Scans (offset + Text.utf8Length piece.text) new outcome) :
    Scans offset (piece.text ++ new) (outcome.map (piece.token offset :: ·)) := by
  have again := ((cuts_of_cut taken).exchanged dark doubled exchanged).cut_eq
  have filled := (full_of_cut dark taken).text_ne_nil
  have whole := append_of_cut taken
  obtain ⟨kind, text, left⟩ := piece
  obtain ⟨first, more, rfl⟩ := List.exists_cons_of_ne_nil filled
  obtain ⟨rfl, rfl⟩ := List.cons.inj whole
  have scanned := Scans.token dark again later
  exact scanned

end Lexer

/-!
## Places of faults
-/

namespace LexFault.BlamedOn

variable {cause : LexFault} {after : List Char}

theorem exists_cons (blamed : cause.BlamedOn after) :
    ∃ mark rest, after = mark :: rest ∧
      (mark ∈ ['\"', '{', '}'] ∨ mark = '\\' ∧ rest = []) := by
  cases blamed with
  | unclosedPhrase | unclosedUri | strayBrace => exact ⟨_, _, rfl, .inl (by simp)⟩
  | danglingEscape => exact ⟨_, _, rfl, .inr ⟨rfl, rfl⟩⟩

theorem cut_eq (blamed : cause.BlamedOn after) : cut after = .error ⟨cause, 0⟩ := by
  cases blamed with
  | unclosedPhrase unclosed => rw [cut, (closePhrase_eq_none_iff _).mpr unclosed]
  | unclosedUri unclosed => rw [cut, (closeUri_eq_none_iff _).mpr unclosed]
  | strayBrace => rfl
  | danglingEscape => rfl

theorem head_ne (blamed : cause.BlamedOn after) {character : Char} (more : List Char)
    (other : character ∉ ['\"', '{', '}', '\\']) : after ≠ character :: more := by
  intro same
  obtain ⟨mark, rest, rfl, marks⟩ := blamed.exists_cons
  obtain ⟨rfl, _⟩ := List.cons.inj same
  apply other
  rcases marks with bracket | ⟨backslash, _⟩
  · simp_all
  · simp [backslash]

/-- What is to blame may be cut off behind a word. -/
theorem exchanged_cut (blamed : cause.BlamedOn after) (rest : List Char) :
    Exchanged (rest ++ after) rest where
  stops := by cases rest <;> simp [wordGoesOn]
  points := by
    intro more points
    cases rest with
    | nil => exact absurd points (blamed.head_ne _ (by decide))
    | cons first rest =>
        cases rest with
        | nil => exact absurd (List.cons.inj points).2 (blamed.head_ne _ (by decide))
        | cons second others =>
            cases points
            exact ⟨others, rfl⟩
  point := by
    intro more point
    exact ⟨more ++ after, by rw [point, List.cons_append]⟩

/-- What is to blame may be put behind a word, unless the word would go on into a backslash. -/
theorem exchanged_behind (blamed : cause.BlamedOn after) {rest : List Char}
    (apart : rest ≠ [] ∨ after ≠ ['\\']) : Exchanged rest (rest ++ after) where
  stops := by
    intro stops
    cases rest with
    | cons first rest => exact stops
    | nil =>
        obtain ⟨mark, rest, rfl, bracket | ⟨rfl, rfl⟩⟩ := blamed.exists_cons
        · simp only [List.mem_cons, List.not_mem_nil, or_false] at bracket
          rcases bracket with rfl | rfl | rfl <;> rfl
        · simp at apart
  points := by
    intro more points
    exact ⟨more ++ after, by rw [points, List.cons_append, List.cons_append]⟩
  point := by
    intro more point
    cases rest with
    | nil => exact absurd point (blamed.head_ne _ (by decide))
    | cons first rest =>
        obtain ⟨rfl, _⟩ := List.cons.inj point
        exact ⟨rest, rfl⟩

theorem not_doubled (blamed : cause.BlamedOn after) {rest : List Char} {sign : Char}
    (doubles : sign ∈ ['&', '|']) (found : (rest ++ after).head? = some sign) :
    rest.head? = some sign := by
  cases rest with
  | cons first rest => exact found
  | nil =>
      obtain ⟨more, same⟩ := List.head?_eq_some_iff.mp found
      refine absurd same (blamed.head_ne _ ?_)
      simp only [List.mem_cons, List.not_mem_nil, or_false] at doubles
      rcases doubles with rfl | rfl <;> decide

end LexFault.BlamedOn

namespace Lexer

/-- A token fails where it begins, except for a word that a backslash ends. -/
theorem cut_eq_error_cases {character : Char} {rest : List Char} {fault : Fault}
    (failed : cut (character :: rest) = .error fault) :
    fault.before = 0 ∧ fault.cause.BlamedOn (character :: rest) ∨
      BeginsWord character rest ∧ wordPiece (character :: rest) = .error fault := by
  generalize filled : character :: rest = characters at failed ⊢
  unfold cut at failed
  split at failed
  case h_1 =>
    split at failed <;> cases failed
    next unclosed => exact .inl ⟨rfl, .unclosedPhrase ((closePhrase_eq_none_iff _).mp unclosed)⟩
  case h_2 =>
    split at failed <;> cases failed
    next unclosed => exact .inl ⟨rfl, .unclosedUri ((closeUri_eq_none_iff _).mp unclosed)⟩
  case h_3 =>
    cases failed
    exact .inl ⟨rfl, .strayBrace⟩
  case h_4 => cases failed
  case h_5 => cases failed
  case h_6 => cases failed
  case h_7 =>
    obtain ⟨rfl, rfl⟩ := List.cons.inj filled
    split at failed
    · next goesOn => exact .inr ⟨⟨by decide, rfl, by simp, fun _ => goesOn⟩, failed⟩
    · cases failed
  case h_8 =>
    obtain ⟨rfl, rfl⟩ := List.cons.inj filled
    split at failed
    · next goesOn => exact .inr ⟨⟨by decide, rfl, by simp, fun _ => goesOn⟩, failed⟩
    · cases failed
  case h_9 => cases filled
  case h_10 noQuote noOpening noClosing _ _ noPoints noStar noMark =>
    obtain ⟨rfl, rfl⟩ := List.cons.inj filled
    split at failed
    · cases failed
    · next noSymbol =>
        refine .inr ⟨⟨?_, noSymbol, ?_, ?_⟩, failed⟩
        · simp only [List.mem_cons, List.not_mem_nil, or_false, not_or]
          exact ⟨noQuote, noOpening, noClosing⟩
        · intro more points
          obtain ⟨rfl, rfl⟩ := List.cons.inj points
          exact noPoints more rfl rfl
        · intro wildcard
          rcases wildcard with star | mark
          · exact absurd star noStar
          · exact absurd mark noMark

/-- What a word has taken before the backslash that ends it is one token. If that is a single
wildcard, it is no word. -/
theorem scans_before_backslash {offset : Nat} {character : Char} {more : List Char}
    (dark : Text.isBlank character = false) (begins : BeginsWord character (more ++ ['\\']))
    (whole : cutWord (character :: more) = .ok (character :: more, [])) :
    ∃ tokens, Scans offset (character :: more) (.ok tokens) := by
  have taken : ∃ piece, cut (character :: more) = .ok piece ∧ piece.rest = [] := by
    by_cases single : more = [] ∧ (character = '*' ∨ character = '?')
    · obtain ⟨rfl, rfl | rfl⟩ := single
      · exact ⟨_, rfl, rfl⟩
      · exact ⟨_, rfl, rfl⟩
    · have again : BeginsWord character more := by
        refine ⟨begins.noBracket, begins.noSymbol, ?_, fun wildcard => ?_⟩
        · intro others points
          obtain ⟨rfl, rfl⟩ := List.cons.inj points
          exact begins.single (others ++ ['\\']) rfl
        · cases more with
          | nil => exact absurd ⟨rfl, wildcard⟩ single
          | cons second more => exact begins.wild wildcard
      refine ⟨⟨Word.classify (character :: more), character :: more, []⟩, ?_, rfl⟩
      rw [again.cut_eq, wordPiece, whole]
  obtain ⟨piece, taken, done⟩ := taken
  have later : Scans (offset + Text.utf8Length piece.text) piece.rest (.ok []) := by
    rw [done]
    exact .done
  exact ⟨_, .token dark taken later⟩

/-- The text before the place of a fault can be cut. -/
theorem Scans.exists_blamed {offset : Nat} {characters : List Char}
    {outcome : Except (LexFault × Nat) (List Token)} (scans : Scans offset characters outcome)
    {cause : LexFault} {position : Nat} (failed : outcome = .error (cause, position)) :
    ∃ before after tokens, characters = before ++ after ∧ cause.BlamedOn after ∧
      position = offset + Text.utf8Length before ∧ Scans offset before (.ok tokens) := by
  induction scans with
  | done => cases failed
  | blank white _ ih =>
      obtain ⟨before, after, tokens, rfl, blamed, rfl, scanned⟩ := ih failed
      refine ⟨_ :: before, after, tokens, rfl, blamed, ?_, .blank white scanned⟩
      rw [Text.utf8Length_cons, Nat.add_assoc]
  | @fault offset character rest fault dark cutFailed =>
      cases failed
      rcases cut_eq_error_cases cutFailed with ⟨here, blamed⟩ | ⟨begins, wordFailed⟩
      · exact ⟨[], character :: rest, [], rfl, blamed, by rw [here]; rfl, .done⟩
      · unfold wordPiece at wordFailed
        split at wordFailed
        · cases wordFailed
        · next read =>
            cases wordFailed
            obtain ⟨word, split, rfl, whole⟩ := exists_of_cutWord_eq_error read
            cases word with
            | nil => exact ⟨[], _, [], split, .danglingEscape, rfl, .done⟩
            | cons first more =>
                obtain ⟨rfl, rfl⟩ := List.cons.inj split
                obtain ⟨tokens, scanned⟩ := scans_before_backslash dark begins whole
                exact ⟨_, _, tokens, rfl, .danglingEscape, rfl, scanned⟩
  | @token offset character rest piece later dark taken _ ih =>
      cases later with
      | ok tokens => cases failed
      | error fault =>
          cases failed
          obtain ⟨before, after, tokens, split, blamed, rfl, scanned⟩ := ih rfl
          have scannedFirst := Scans.token_exchanged dark taken
            (fun sign _ found => by rw [split, List.head?_append, found]; rfl)
            (fun _ => by rw [split]; exact blamed.exchanged_cut before) scanned
          refine ⟨piece.text ++ before, after, _, ?_, blamed, ?_, scannedFirst⟩
          · rw [List.append_assoc, ← split, append_of_cut taken]
          · rw [Text.utf8Length_append, Nat.add_assoc]

theorem symbol?_notMem_termWords {character : Char} {kind : TokenKind}
    (symbol : symbol? character = some kind) : kind ∉ TokenKind.termWords := by
  unfold symbol? at symbol
  split at symbol <;> cases symbol <;> decide

/-- A word or a wildcard goes on into a backslash, which is then the last character of the word. -/
theorem cut_append_backslash {character : Char} {rest : List Char} {piece : Piece}
    (cuts : Cuts (character :: rest) piece) (word : piece.kind ∈ TokenKind.termWords)
    (last : piece.rest = []) :
    cut (character :: rest ++ ['\\']) =
      .error ⟨.danglingEscape, Text.utf8Length (character :: rest)⟩ := by
  have goesOn {read : List Char} (begins : BeginsWord character (rest ++ ['\\']))
      (taken : cutWord (character :: rest) = .ok (read, [])) :
      cut (character :: rest ++ ['\\']) =
        .error ⟨.danglingEscape, Text.utf8Length (character :: rest)⟩ := by
    rw [List.cons_append, begins.cut_eq, wordPiece, ← List.cons_append,
      cutWord_append_backslash taken]
  cases cuts with
  | phrase | uri | ampAmp | barBar | dotDot =>
      simp [TokenKind.termWords, TokenKind.words, TokenKind.wildcards] at word
  | symbol symbol => exact absurd word (symbol?_notMem_termWords symbol)
  | star | questionMark =>
      obtain rfl := last
      exact goesOn ⟨by decide, rfl, by simp, fun _ => rfl⟩ rfl
  | word begins taken =>
      unfold wordPiece at taken
      split at taken
      · next read =>
          cases taken
          obtain rfl := last
          refine goesOn ⟨begins.noBracket, begins.noSymbol, ?_, ?_⟩ read
          · intro more points
            obtain ⟨rfl, behind⟩ := List.cons.inj points
            cases rest with
            | nil => cases behind
            | cons second rest =>
                obtain ⟨rfl, _⟩ := List.cons.inj behind
                exact begins.single rest rfl
          · intro wildcard
            cases rest with
            | nil => rfl
            | cons second rest => exact begins.wild wildcard
      · cases taken

/-- What is to blame is reached when the text before it can be cut. -/
theorem Scans.blamed {offset : Nat} {before after : List Char} {tokens : List Token}
    {cause : LexFault} (scans : Scans offset before (.ok tokens)) (blamed : cause.BlamedOn after) :
    Scans offset (before ++ after) (.error (cause, offset + Text.utf8Length before)) := by
  induction scans using Scans.accepted_induction with
  | @done offset =>
      have cut := blamed.cut_eq
      cases blamed <;> exact .fault rfl cut
  | blank white _ ih =>
      rw [Text.utf8Length_cons, ← Nat.add_assoc]
      exact .blank white ih
  | @token offset character rest piece others dark taken _ ih =>
      by_cases into : piece.kind ∈ TokenKind.termWords ∧ piece.rest = [] ∧ after = ['\\']
      · obtain ⟨word, last, rfl⟩ := into
        cases blamed
        exact .fault dark (cut_append_backslash (cuts_of_cut taken) word last)
      · have scanned := Scans.token_exchanged dark taken (fun _ => blamed.not_doubled)
          (fun word => blamed.exchanged_behind (by grind)) ih
        rw [← append_of_cut taken, List.append_assoc, Text.utf8Length_append, ← Nat.add_assoc]
        exact scanned

end Lexer

/-- A query that cannot be cut has a place, between two of its characters, that is to blame: the
text before it can be cut, and what begins there explains what is said. Wherever a query has such a
place, it cannot be cut because of it. -/
theorem tokenize_error_localized (query : String) :
    (∀ error, tokenize query = .error error →
      error.input = query ∧ error.position < query.utf8ByteSize ∧
        (String.Pos.Raw.mk error.position).IsValid query ∧
        ∃ before after tokens cause, query.toList = before ++ after ∧
          Text.utf8Length before = error.position ∧
          tokenize (String.ofList before) = .ok tokens ∧
          LexFault.BlamedOn cause after ∧ error.message = cause.message) ∧
    ∀ before after tokens cause, query.toList = before ++ after →
      tokenize (String.ofList before) = .ok tokens → LexFault.BlamedOn cause after →
      tokenize query = .error ⟨cause.message, Text.utf8Length before, query⟩ := by
  constructor
  · intro error rejected
    obtain ⟨cause, position, scans, rfl⟩ := tokenize_eq_error_iff.mp rejected
    obtain ⟨before, after, tokens, split, blamed, place, scanned⟩ := scans.exists_blamed rfl
    rw [Nat.zero_add] at place
    subst place
    refine ⟨rfl, ?inside, Text.isValid_of_split split, before, after, tokens, cause, split, rfl,
      ?cut, blamed, rfl⟩
    case inside =>
      obtain ⟨mark, rest, rfl, _⟩ := blamed.exists_cons
      have size := Text.utf8Length_pos (List.cons_ne_nil mark rest)
      change Text.utf8Length before < query.utf8ByteSize
      rw [← Text.utf8Length_toList, split, Text.utf8Length_append]
      omega
    case cut =>
      apply tokenize_eq_ok_iff.mpr
      rw [String.toList_ofList]
      exact scanned
  · intro before after tokens cause split cut blamed
    have scanned := tokenize_eq_ok_iff.mp cut
    rw [String.toList_ofList] at scanned
    apply tokenize_eq_error_iff.mpr
    refine ⟨cause, _, ?_, rfl⟩
    have scans := scanned.blamed blamed
    rwa [Nat.zero_add, ← split] at scans

/-- A phrase whose only later quote is escaped, behind a letter of two bytes. -/
theorem tokenize_error_localized_of_escaped_quote :
    let query := "é {u} \"a\\\""
    tokenize query = .error ⟨"unclosed phrase", 7, query⟩ ∧ 7 < query.utf8ByteSize ∧
      (String.Pos.Raw.mk 7).IsValid query ∧
      ∃ before after tokens cause, query.toList = before ++ after ∧ Text.utf8Length before = 7 ∧
        tokenize (String.ofList before) = .ok tokens ∧ LexFault.BlamedOn cause after ∧
        "unclosed phrase" = cause.message := by
  intro query
  have characters : query.toList =
      ['é', ' ', '{', 'u', '}', ' '] ++ ['\"', 'a', '\\', '\"'] := String.toList_ofList
  have cut : tokenize (String.ofList ['é', ' ', '{', 'u', '}', ' ']) =
      .ok [⟨.word, "é", 0, 2⟩, ⟨.uri, "{u}", 3, 6⟩] := by
    rw [tokenize, String.toList_ofList]
    rfl
  have unclosed : ¬ HoldsQuote ['a', '\\', '\"'] := (closePhrase_eq_none_iff _).mp rfl
  have rejected :=
    (tokenize_error_localized query).2 _ _ _ _ characters cut (.unclosedPhrase unclosed)
  obtain ⟨_, inside, valid, explained⟩ := (tokenize_error_localized query).1 _ rejected
  exact ⟨rejected, inside, valid, explained⟩

end SearchQuery
