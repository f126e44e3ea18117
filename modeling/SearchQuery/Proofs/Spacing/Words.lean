import SearchQuery.Proofs.Token.Scan
set_option autoImplicit false

/-!
# Tokens away from their neighbours

The scan looks behind the token that it takes: a word ends before two points, and a wildcard is a
word only if a word goes on behind it. A token is taken again from its own text when a blank or
nothing follows. The one exception is a single wildcard before two points, which was a word.
-/

namespace SearchQuery.Lexer

/-- Nothing, or a blank: no token goes on into this. -/
inductive Clear : List Char → Prop where
  | atEnd : Clear []
  | blank {character : Char} {rest : List Char} :
      Text.isBlank character = true → Clear (character :: rest)

variable {after : List Char}

theorem Clear.ne_cons {character : Char} (clear : Clear after)
    (dark : Text.isBlank character = false) (rest : List Char) : after ≠ character :: rest := by
  rintro rfl
  cases clear with
  | blank white =>
      rw [dark] at white
      cases white

theorem Clear.wordGoesOn_eq_false (clear : Clear after) : wordGoesOn after = false := by
  cases clear with
  | atEnd => rfl
  | blank white => simp [wordGoesOn, continuesWord, white]

/-!
## Words
-/

theorem cutWord_cons {character : Char} {rest : List Char} (plain : character ≠ '\\')
    (single : ∀ more, character :: rest ≠ '.' :: '.' :: more)
    (goesOn : continuesWord character = true) :
    cutWord (character :: rest) =
      match cutWord rest with
      | .ok (word, after) => .ok (character :: word, after)
      | .error fault => .error (fault.shift character.utf8Size) := by
  rw [cutWord.eq_def]
  grind

theorem Clear.endsWord (clear : Clear after) : EndsWord after := by
  cases clear with
  | atEnd => exact .atEnd
  | blank white => exact .blank white

theorem EndsWord.cutWord_eq (ends : EndsWord after) : cutWord after = .ok ([], after) := by
  have stopped {character : Char} {rest : List Char} (stops : continuesWord character = false) :
      cutWord (character :: rest) = .ok ([], character :: rest) := by
    have plain : character ≠ '\\' := by
      rintro rfl
      cases stops
    rw [cutWord.eq_def]
    grind
  cases ends with
  | atEnd => rfl
  | blank white => exact stopped (by simp [continuesWord, white])
  | delimiter delimits => exact stopped (by simp [continuesWord, delimits])
  | points => rfl

theorem EndsWord.append {rest : List Char} (ends : EndsWord rest) (clear : Clear after) :
    EndsWord (rest ++ after) := by
  cases ends with
  | atEnd => exact clear.endsWord
  | blank white => exact .blank white
  | delimiter delimits => exact .delimiter delimits
  | points => exact .points

/-- A word is the same with something else behind it that ends words. Only a single point must not
come behind it, since it might be the second of two. -/
theorem cutWord_behind {characters word rest : List Char}
    (taken : cutWord characters = .ok (word, rest)) (ends : EndsWord after)
    (apart : ∀ more, after = '.' :: more → ∃ others, rest = '.' :: others) :
    cutWord (word ++ after) = .ok (word, after) := by
  fun_induction cutWord characters generalizing word rest with
  | case1 =>
      cases taken
      exact ends.cutWord_eq
  | case2 => cases taken
  | case3 escaped characters inner left read ih =>
      cases taken
      rw [List.cons_append, List.cons_append, cutWord, ih read apart]
  | case4 => cases taken
  | case5 =>
      cases taken
      exact ends.cutWord_eq
  | case6 character characters notLast notEscape notDots goesOn inner left read ih =>
      cases taken
      have plain := ne_backslash notLast notEscape
      have single : ∀ more, character :: (inner ++ after) ≠ '.' :: '.' :: more := by
        intro more same
        obtain ⟨rfl, behind⟩ := List.cons.inj same
        have whole := append_of_cutWord read
        cases inner with
        | nil =>
            obtain ⟨others, rfl⟩ := apart more behind
            exact notDots others rfl whole.symm
        | cons second inner =>
            obtain ⟨rfl, _⟩ := List.cons.inj behind
            exact notDots (inner ++ left) rfl whole.symm
      rw [List.cons_append, cutWord_cons plain single goesOn, ih read apart]
  | case7 => cases taken
  | case8 =>
      cases taken
      exact ends.cutWord_eq

theorem cutWord_again {characters word rest : List Char}
    (taken : cutWord characters = .ok (word, rest)) (clear : Clear after) :
    cutWord (word ++ after) = .ok (word, after) :=
  cutWord_behind taken clear.endsWord fun more same =>
    absurd same (clear.ne_cons (by decide) more)

theorem wordPiece_again {characters : List Char} {piece : Piece}
    (taken : wordPiece characters = .ok piece) (clear : Clear after) :
    wordPiece (piece.text ++ after) = .ok ⟨piece.kind, piece.text, after⟩ := by
  unfold wordPiece at taken
  split at taken
  · next read =>
      cases taken
      rw [wordPiece, cutWord_again read clear]
  · cases taken

/-!
## Phrases and namespaces
-/

theorem closePhrase_again {characters inner rest : List Char}
    (closed : closePhrase characters = some (inner, rest)) (after : List Char) :
    closePhrase (inner ++ after) = some (inner, after) := by
  fun_induction closePhrase characters generalizing inner rest with
  | case1 => cases closed
  | case2 =>
      cases closed
      rfl
  | case3 => cases closed
  | case4 escaped characters ih =>
      obtain ⟨⟨text, left⟩, found, rfl, rfl⟩ := Option.map_eq_some_iff.mp closed
      rw [List.cons_append, List.cons_append, closePhrase, ih found]
      rfl
  | case5 character characters notQuote notLast notEscape ih =>
      obtain ⟨⟨text, left⟩, found, rfl, rfl⟩ := Option.map_eq_some_iff.mp closed
      have plain := ne_backslash notLast notEscape
      rw [List.cons_append, closePhrase.eq_def]
      grind

theorem closeUri_again {characters inner rest : List Char}
    (closed : closeUri characters = some (inner, rest)) (after : List Char) :
    closeUri (inner ++ after) = some (inner, after) := by
  fun_induction closeUri characters generalizing inner rest with
  | case1 => cases closed
  | case2 =>
      cases closed
      rfl
  | case3 character characters notBrace ih =>
      obtain ⟨⟨text, left⟩, found, rfl, rfl⟩ := Option.map_eq_some_iff.mp closed
      rw [List.cons_append, closeUri, ih found]
      · rfl
      · exact notBrace

/-!
## Pieces
-/

/-- A single wildcard that is a word, because two points follow. -/
structure Piece.Pinned (piece : Piece) : Prop where
  kind : piece.kind = .wildWord
  text : piece.text = ['*'] ∨ piece.text = ['?']
  points : ∃ more, piece.rest = '.' :: '.' :: more

theorem EndsWord.points_of_goesOn {rest : List Char} (ends : EndsWord rest)
    (goesOn : wordGoesOn rest = true) : ∃ more, rest = '.' :: '.' :: more := by
  cases ends with
  | atEnd => cases goesOn
  | blank white => simp [wordGoesOn, continuesWord, white] at goesOn
  | delimiter delimits => simp [wordGoesOn, continuesWord, delimits] at goesOn
  | points => exact ⟨_, rfl⟩

/-- What a word is begun with begins it again. It may be a single full stop before another one or a
wildcard, so what is behind it counts. -/
theorem BeginsWord.again {first : Char} {rest : List Char} {piece : Piece}
    (begins : BeginsWord first rest) (dark : Text.isBlank first = false)
    (taken : wordPiece (first :: rest) = .ok piece) (clear : Clear after) :
    (∃ word, piece.text = first :: word ∧ BeginsWord first (word ++ after)) ∨ piece.Pinned := by
  have full := full_of_wordPiece (begins.continues dark) begins.single taken
  have kind := kind_of_wordPiece taken
  have whole := append_of_wordPiece taken
  obtain ⟨start, word, text⟩ := List.exists_cons_of_ne_nil full.text_ne_nil
  rw [text, List.cons_append] at whole
  obtain ⟨rfl, rfl⟩ := List.cons.inj whole
  by_cases pinned : piece.Pinned
  · exact .inr pinned
  refine .inl ⟨word, text, begins.noBracket, begins.noSymbol, ?single, fun wildcard => ?wild⟩
  case single =>
    intro more points
    obtain ⟨rfl, second⟩ := List.cons.inj points
    cases word with
    | nil => exact clear.ne_cons (by decide) more second
    | cons next word =>
        obtain ⟨rfl, _⟩ := List.cons.inj second
        exact begins.single (word ++ piece.rest) rfl
  case wild =>
    -- A wildcard that was all of the word had two points behind it.
    have goesOn := begins.wild wildcard
    cases word with
    | cons second word => exact goesOn
    | nil =>
        rw [text] at kind
        have isWord : piece.kind.isWord = true := kind ▸ isWord_classify [start]
        refine absurd ⟨?_, ?_, (full.maximal isWord).points_of_goesOn goesOn⟩ pinned
        · rcases wildcard with rfl | rfl <;> exact kind
        · rcases wildcard with rfl | rfl
          · exact .inl text
          · exact .inr text

/-- A piece is cut again from its own text. A single wildcard that was a word is not. -/
theorem cut_again {character : Char} {rest : List Char} {piece : Piece}
    (dark : Text.isBlank character = false) (taken : cut (character :: rest) = .ok piece)
    (clear : Clear after) :
    cut (piece.text ++ after) = .ok ⟨piece.kind, piece.text, after⟩ ∨ piece.Pinned := by
  cases cuts_of_cut taken with
  | phrase closed => exact .inl (Cuts.phrase (closePhrase_again closed after)).cut_eq
  | uri closed => exact .inl (Cuts.uri (closeUri_again closed after)).cut_eq
  | ampAmp | barBar | dotDot => exact .inl rfl
  | star => exact .inl (Cuts.star clear.wordGoesOn_eq_false).cut_eq
  | questionMark => exact .inl (Cuts.questionMark clear.wordGoesOn_eq_false).cut_eq
  | symbol symbol =>
      refine .inl (Cuts.symbol symbol fun _ doubled => ?_).cut_eq
      obtain ⟨more, same⟩ := List.head?_eq_some_iff.mp doubled
      exact clear.ne_cons dark more same
  | word begins word =>
      rcases begins.again dark word clear with ⟨inner, text, again⟩ | pinned
      · have wordAgain := wordPiece_again word clear
        rw [text, List.cons_append] at wordAgain ⊢
        exact .inl (Cuts.word again wordAgain).cut_eq
      · exact .inr pinned

end SearchQuery.Lexer
