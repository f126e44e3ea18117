import SearchQuery.Token.Lexer
set_option autoImplicit false

/-!
# The scan and its steps

A step of the scan passes a blank or takes a token, and either is at least one character. So the
scan comes to an end on every text, and the number of steps that `Lexer.tokensFrom` is given never
cuts it short.
-/

namespace SearchQuery.Lexer

/-- The token of a piece that begins at a byte offset. -/
def Piece.token (piece : Piece) (offset : Nat) : Token :=
  ⟨piece.kind, String.ofList piece.text, offset, offset + Text.utf8Length piece.text⟩

theorem Piece.toList_text_token (piece : Piece) (offset : Nat) :
    (piece.token offset).text.toList = piece.text :=
  String.toList_ofList

/-- The scan of characters that start at a byte offset, for as many steps as it takes. -/
inductive Scans : Nat → List Char → Except (LexFault × Nat) (List Token) → Prop where
  | done {offset : Nat} : Scans offset [] (.ok [])
  | blank {offset : Nat} {character : Char} {rest : List Char}
      {outcome : Except (LexFault × Nat) (List Token)} :
      Text.isBlank character = true → Scans (offset + character.utf8Size) rest outcome →
      Scans offset (character :: rest) outcome
  | fault {offset : Nat} {character : Char} {rest : List Char} {fault : Fault} :
      Text.isBlank character = false → cut (character :: rest) = .error fault →
      Scans offset (character :: rest) (.error (fault.cause, offset + fault.before))
  | token {offset : Nat} {character : Char} {rest : List Char} {piece : Piece}
      {outcome : Except (LexFault × Nat) (List Token)} :
      Text.isBlank character = false → cut (character :: rest) = .ok piece →
      Scans (offset + Text.utf8Length piece.text) piece.rest outcome →
      Scans offset (character :: rest) (outcome.map (piece.token offset :: ·))

/-!
## A word
-/

/-- Where a word ends: at the end of the text, and before a blank, a delimiter or two points. -/
inductive EndsWord : List Char → Prop where
  | atEnd : EndsWord []
  | blank {character : Char} {rest : List Char} :
      Text.isBlank character = true → EndsWord (character :: rest)
  | delimiter {character : Char} {rest : List Char} :
      character ∈ delimiters → EndsWord (character :: rest)
  | points {rest : List Char} : EndsWord ('.' :: '.' :: rest)

theorem EndsWord.of_continuesWord {character : Char} {rest : List Char}
    (stops : continuesWord character = false) : EndsWord (character :: rest) := by
  simp only [continuesWord, Bool.and_eq_false_iff, Bool.not_eq_false'] at stops
  rcases stops with white | delimits
  · exact .blank white
  · exact .delimiter (by simpa using delimits)

theorem endsWord_of_cutWord {characters word after : List Char}
    (taken : cutWord characters = .ok (word, after)) : EndsWord after := by
  fun_induction cutWord characters generalizing word after with
  | case1 =>
      cases taken
      exact .atEnd
  | case2 => cases taken
  | case3 _ _ _ _ read ih =>
      cases taken
      exact ih read
  | case4 => cases taken
  | case5 =>
      cases taken
      exact .points
  | case6 _ _ _ _ _ _ _ _ read ih =>
      cases taken
      exact ih read
  | case7 => cases taken
  | case8 _ _ _ _ _ stops =>
      cases taken
      exact .of_continuesWord (by simpa using stops)

/-- A character that is read by itself, with an escape having been looked for, is no backslash. -/
theorem ne_backslash {character : Char} {rest : List Char}
    (notLast : character = '\\' → rest = [] → False)
    (notEscape : ∀ escaped more, character = '\\' → rest = escaped :: more → False) :
    character ≠ '\\' := by
  intro backslash
  cases rest with
  | nil => exact notLast backslash rfl
  | cons escaped more => exact notEscape escaped more backslash rfl

theorem cutWord_ne_nil {character : Char} {rest word after : List Char}
    (goesOn : continuesWord character = true)
    (single : ∀ more, character :: rest ≠ '.' :: '.' :: more)
    (taken : cutWord (character :: rest) = .ok (word, after)) : word ≠ [] := by
  unfold cutWord at taken
  grind

theorem isWord_keyword {characters : List Char} {kind : TokenKind}
    (spelled : Word.keyword? characters = some kind) : kind.isWord = true := by
  unfold Word.keyword? at spelled
  repeat' split at spelled
  all_goals first | cases spelled; rfl | cases spelled

theorem isWord_classifyPlain (characters : List Char) :
    (Word.classifyPlain characters).isWord = true := by
  unfold Word.classifyPlain
  split
  · rfl
  split
  · rfl
  split
  · cases spelled : Word.keyword? characters with
    | none => rfl
    | some kind => exact isWord_keyword spelled
  · rfl

theorem isWord_classify (characters : List Char) : (Word.classify characters).isWord = true := by
  rw [Word.classify]
  split
  · rfl
  split
  · rfl
  split
  · rfl
  · exact isWord_classifyPlain characters

theorem kind_of_wordPiece {characters : List Char} {piece : Piece}
    (taken : wordPiece characters = .ok piece) : piece.kind = Word.classify piece.text := by
  unfold wordPiece at taken
  split at taken <;> cases taken
  rfl

/-!
## A piece
-/

/-- A piece is not empty, and if it is a word then it goes as far as a word can. -/
structure Piece.Full (piece : Piece) : Prop where
  text_ne_nil : piece.text ≠ []
  maximal : piece.kind.isWord = true → EndsWord piece.rest

theorem full_of_wordPiece {character : Char} {rest : List Char} {piece : Piece}
    (goesOn : continuesWord character = true)
    (single : ∀ more, character :: rest ≠ '.' :: '.' :: more)
    (taken : wordPiece (character :: rest) = .ok piece) : piece.Full := by
  unfold wordPiece at taken
  split at taken
  · next read =>
      cases taken
      exact ⟨cutWord_ne_nil goesOn single read, fun _ => endsWord_of_cutWord read⟩
  · cases taken

theorem symbol?_not_isWord {character : Char} {kind : TokenKind}
    (symbol : symbol? character = some kind) : kind.isWord = false := by
  unfold symbol? at symbol
  split at symbol <;> first | cases symbol; rfl | cases symbol

/-- The delimiters that are no symbol open or close something. -/
theorem eq_of_mem_delimiters {character : Char} (delimits : character ∈ delimiters)
    (noSymbol : symbol? character = none) :
    character = '\"' ∨ character = '{' ∨ character = '}' := by
  simp only [delimiters, List.mem_cons, List.not_mem_nil, or_false] at delimits
  rcases delimits with rfl | rfl | rfl | rfl | rfl | rfl | rfl | rfl | rfl | rfl | rfl | rfl | rfl |
    rfl | rfl | rfl | rfl | rfl | rfl | rfl <;> first | simp; done | cases noSymbol

/-- What a word can begin with. A wildcard begins one only if it goes on. -/
structure BeginsWord (character : Char) (rest : List Char) : Prop where
  noBracket : character ∉ ['\"', '{', '}']
  noSymbol : symbol? character = none
  single : ∀ more, character :: rest ≠ '.' :: '.' :: more
  wild : character = '*' ∨ character = '?' → wordGoesOn rest = true

/-- A piece and the characters that it is taken off. -/
inductive Cuts : List Char → Piece → Prop where
  | phrase {rest inner after : List Char} :
      closePhrase rest = some (inner, after) →
      Cuts ('\"' :: rest) ⟨.phrase, '\"' :: inner, after⟩
  | uri {rest inner after : List Char} :
      closeUri rest = some (inner, after) → Cuts ('{' :: rest) ⟨.uri, '{' :: inner, after⟩
  | ampAmp {rest : List Char} : Cuts ('&' :: '&' :: rest) ⟨.ampAmp, ['&', '&'], rest⟩
  | barBar {rest : List Char} : Cuts ('|' :: '|' :: rest) ⟨.barBar, ['|', '|'], rest⟩
  | dotDot {rest : List Char} : Cuts ('.' :: '.' :: rest) ⟨.dotDot, ['.', '.'], rest⟩
  | star {rest : List Char} : wordGoesOn rest = false → Cuts ('*' :: rest) ⟨.star, ['*'], rest⟩
  | questionMark {rest : List Char} :
      wordGoesOn rest = false → Cuts ('?' :: rest) ⟨.questionMark, ['?'], rest⟩
  | symbol {character : Char} {kind : TokenKind} {rest : List Char} :
      symbol? character = some kind →
      (character = '&' ∨ character = '|' → rest.head? ≠ some character) →
      Cuts (character :: rest) ⟨kind, [character], rest⟩
  | word {character : Char} {rest : List Char} {piece : Piece} :
      BeginsWord character rest → wordPiece (character :: rest) = .ok piece →
      Cuts (character :: rest) piece

theorem cuts_of_cut {character : Char} {rest : List Char} {piece : Piece}
    (taken : cut (character :: rest) = .ok piece) : Cuts (character :: rest) piece := by
  generalize filled : character :: rest = characters at taken ⊢
  unfold cut at taken
  split at taken
  case h_1 =>
    split at taken <;> cases taken
    next closed => exact .phrase closed
  case h_2 =>
    split at taken <;> cases taken
    next closed => exact .uri closed
  case h_3 => cases taken
  case h_4 =>
    cases taken
    exact .ampAmp
  case h_5 =>
    cases taken
    exact .barBar
  case h_6 =>
    cases taken
    exact .dotDot
  case h_7 =>
    split at taken
    · next goesOn => exact .word ⟨by decide, rfl, by simp, fun _ => goesOn⟩ taken
    · next stops =>
        cases taken
        exact .star (by simpa using stops)
  case h_8 =>
    split at taken
    · next goesOn => exact .word ⟨by decide, rfl, by simp, fun _ => goesOn⟩ taken
    · next stops =>
        cases taken
        exact .questionMark (by simpa using stops)
  case h_9 => cases filled
  case h_10 noQuote noOpening noClosing noAmps noBars noPoints noStar noMark =>
    split at taken
    · next symbol =>
        cases taken
        refine .symbol symbol ?_
        rintro (rfl | rfl) doubled <;> obtain ⟨more, rfl⟩ := List.head?_eq_some_iff.mp doubled
        · exact noAmps more rfl rfl
        · exact noBars more rfl rfl
    · next noSymbol =>
        refine .word ⟨?_, noSymbol, ?_, ?_⟩ taken
        · simp only [List.mem_cons, List.not_mem_nil, or_false, not_or]
          exact ⟨noQuote, noOpening, noClosing⟩
        · intro more points
          obtain ⟨rfl, rfl⟩ := List.cons.inj points
          exact noPoints more rfl rfl
        · rintro (star | mark)
          · exact absurd star noStar
          · exact absurd mark noMark

theorem Cuts.cut_eq {characters : List Char} {piece : Piece} (cuts : Cuts characters piece) :
    cut characters = .ok piece := by
  cases cuts with
  | phrase closed | uri closed => rw [cut, closed]
  | ampAmp | barBar | dotDot => rfl
  | star stops | questionMark stops =>
      rw [cut, stops]
      rfl
  | @symbol character kind rest symbol undoubled =>
      rw [cut.eq_def]
      split <;> grind [symbol?]
  | @word character rest piece begins taken =>
      rw [← taken, cut.eq_def]
      obtain ⟨noBracket, noSymbol, single, wild⟩ := begins
      split <;> grind [symbol?]

theorem BeginsWord.continues {character : Char} {rest : List Char}
    (begins : BeginsWord character rest) (dark : Text.isBlank character = false) :
    continuesWord character = true := by
  have undelimited : delimiters.contains character = false := by
    rw [Bool.eq_false_iff]
    intro delimits
    have opens := eq_of_mem_delimiters (by simpa using delimits) begins.noSymbol
    exact begins.noBracket (by simpa using opens)
  rw [continuesWord, dark, undelimited]
  rfl

theorem full_of_cut {character : Char} {rest : List Char} {piece : Piece}
    (dark : Text.isBlank character = false) (taken : cut (character :: rest) = .ok piece) :
    piece.Full := by
  have noWord {kind : TokenKind} {text after : List Char} (filled : text ≠ [])
      (other : kind.isWord = false) : (Piece.mk kind text after).Full :=
    ⟨filled, fun word => absurd word (by simp [other])⟩
  cases cuts_of_cut taken with
  | phrase | uri | ampAmp | barBar | dotDot | star | questionMark => exact noWord (by simp) rfl
  | symbol symbol => exact noWord (by simp) (symbol?_not_isWord symbol)
  | word begins taken => exact full_of_wordPiece (begins.continues dark) begins.single taken

/-!
## Steps
-/

theorem length_lt_of_cut {character : Char} {rest : List Char} {piece : Piece}
    (dark : Text.isBlank character = false) (taken : cut (character :: rest) = .ok piece) :
    piece.rest.length < (character :: rest).length := by
  have filled := List.length_pos_iff.mpr (full_of_cut dark taken).text_ne_nil
  rw [← append_of_cut taken, List.length_append]
  omega

/-- Induction along a scan that comes to its end without a fault. -/
theorem Scans.accepted_induction
    {motive : ∀ offset characters tokens, Scans offset characters (.ok tokens) → Prop}
    (done : ∀ {offset : Nat}, motive offset [] [] .done)
    (blank : ∀ {offset : Nat} {character : Char} {rest : List Char} {tokens : List Token}
      (white : Text.isBlank character = true)
      (later : Scans (offset + character.utf8Size) rest (.ok tokens)),
      motive (offset + character.utf8Size) rest tokens later →
      motive offset (character :: rest) tokens (.blank white later))
    (token : ∀ {offset : Nat} {character : Char} {rest : List Char} {piece : Piece}
      {tokens : List Token} (dark : Text.isBlank character = false)
      (taken : cut (character :: rest) = .ok piece)
      (later : Scans (offset + Text.utf8Length piece.text) piece.rest (.ok tokens)),
      motive (offset + Text.utf8Length piece.text) piece.rest tokens later →
      motive offset (character :: rest) (piece.token offset :: tokens) (.token dark taken later))
    {offset : Nat} {characters : List Char} {tokens : List Token}
    (scans : Scans offset characters (.ok tokens)) : motive offset characters tokens scans := by
  have along {offset : Nat} {characters : List Char}
      {outcome : Except (LexFault × Nat) (List Token)} (scans : Scans offset characters outcome) :
      ∀ {tokens : List Token} (accepted : outcome = .ok tokens),
        motive offset characters tokens (accepted ▸ scans) := by
    induction scans with
    | done =>
        intro tokens accepted
        cases accepted
        exact done
    | blank white later ih =>
        intro tokens accepted
        subst accepted
        exact blank white later (ih rfl)
    | fault => nofun
    | @token _ _ _ _ outcome dark taken later ih =>
        intro tokens accepted
        cases outcome with
        | error fault => cases accepted
        | ok others =>
            cases accepted
            exact token dark taken later (ih rfl)
  exact along scans rfl

/-- As many steps as there are characters are enough for the whole scan. -/
theorem tokensFrom_scans {steps : Nat} (offset : Nat) {characters : List Char}
    (enough : characters.length ≤ steps) :
    Scans offset characters (tokensFrom steps offset characters) := by
  induction steps generalizing offset characters with
  | zero =>
      obtain rfl := List.length_eq_zero_iff.mp (Nat.le_zero.mp enough)
      exact .done
  | succ steps ih =>
      cases characters with
      | nil => exact .done
      | cons character rest =>
          have shorter := Nat.le_of_succ_le_succ enough
          rw [tokensFrom]
          split
          · next white => exact .blank white (ih _ shorter)
          · next notWhite =>
              have dark : Text.isBlank character = false := by simpa using notWhite
              split
              · next failed => exact .fault dark failed
              · next piece taken =>
                  have remaining := length_lt_of_cut dark taken
                  have later := ih (offset + Text.utf8Length piece.text)
                    (show piece.rest.length ≤ steps by omega)
                  have scanned := Scans.token dark taken later
                  dsimp only
                  split
                  · next same => rwa [same] at scanned
                  · next same => rwa [same] at scanned

theorem Scans.unique {offset : Nat} {characters : List Char}
    {first second : Except (LexFault × Nat) (List Token)} (left : Scans offset characters first)
    (right : Scans offset characters second) : first = second := by
  induction left generalizing second with
  | done =>
      cases right
      rfl
  | blank white _ ih =>
      cases right with
      | blank _ later => exact ih later
      | fault dark _ | token dark _ _ =>
          rw [white] at dark
          cases dark
  | fault dark failed =>
      cases right with
      | blank white _ =>
          rw [white] at dark
          cases dark
      | fault _ again =>
          rw [failed] at again
          cases again
          rfl
      | token _ taken _ =>
          rw [failed] at taken
          cases taken
  | token dark taken _ ih =>
      cases right with
      | blank white _ =>
          rw [white] at dark
          cases dark
      | fault _ failed =>
          rw [taken] at failed
          cases failed
      | token _ again later =>
          rw [taken] at again
          cases again
          rw [ih later]

theorem scans_tokensFrom (characters : List Char) :
    Scans 0 characters (tokensFrom characters.length 0 characters) :=
  tokensFrom_scans 0 (Nat.le_refl characters.length)

end SearchQuery.Lexer

namespace SearchQuery

open Lexer

theorem tokenize_eq_ok_iff {query : String} {tokens : List Token} :
    tokenize query = .ok tokens ↔ Scans 0 query.toList (.ok tokens) := by
  have scans := scans_tokensFrom query.toList
  rw [tokenize]
  constructor
  · intro accepted
    split at accepted
    · next same =>
        cases accepted
        rwa [same] at scans
    · cases accepted
  · intro scanned
    rw [scans.unique scanned]

theorem tokenize_eq_error_iff {query : String} {error : LexError} :
    tokenize query = .error error ↔
      ∃ cause position, Scans 0 query.toList (.error (cause, position)) ∧
        error = ⟨cause.message, position, query⟩ := by
  have scans := scans_tokensFrom query.toList
  rw [tokenize]
  constructor
  · intro rejected
    split at rejected
    · cases rejected
    · next same =>
        cases rejected
        rw [same] at scans
        exact ⟨_, _, scans, rfl⟩
  · rintro ⟨cause, position, scanned, rfl⟩
    rw [scans.unique scanned]

end SearchQuery
