import SearchQuery.Proofs.Spacing.Words
set_option autoImplicit false

/-!
# Texts with a blank between

A blank closes the scan of what is before it. A text that is cut into tokens is cut into the same
ones when a blank and another text follow, and the other text is scanned as by itself, with its
places moved on by the bytes before it.
-/

namespace SearchQuery

/-- The token with so many bytes before it that were not there. -/
def Token.shift (bytes : Nat) (token : Token) : Token :=
  { token with start := token.start + bytes, stop := token.stop + bytes }

namespace Lexer

variable {after : List Char}

/-!
## One token
-/

theorem cutWord_append {characters word rest : List Char}
    (taken : cutWord characters = .ok (word, rest)) (clear : Clear after) :
    cutWord (characters ++ after) = .ok (word, rest ++ after) := by
  -- A point behind the word was there before, since a blank is none.
  have pointed : ∀ more, rest ++ after = '.' :: more → ∃ others, rest = '.' :: others := by
    intro more same
    cases rest with
    | nil => exact absurd same (clear.ne_cons (by decide) more)
    | cons first rest =>
        obtain ⟨rfl, _⟩ := List.cons.inj same
        exact ⟨rest, rfl⟩
  have behind := cutWord_behind taken ((endsWord_of_cutWord taken).append clear) pointed
  rwa [← List.append_assoc, append_of_cutWord taken] at behind

theorem wordPiece_append {characters : List Char} {piece : Piece}
    (taken : wordPiece characters = .ok piece) (clear : Clear after) :
    wordPiece (characters ++ after) = .ok { piece with rest := piece.rest ++ after } := by
  unfold wordPiece at taken
  split at taken
  · next read =>
      cases taken
      rw [wordPiece, cutWord_append read clear]
  · cases taken

theorem closePhrase_append {characters inner rest : List Char}
    (closed : closePhrase characters = some (inner, rest)) :
    closePhrase (characters ++ after) = some (inner, rest ++ after) := by
  rw [← append_of_closePhrase closed, List.append_assoc]
  exact closePhrase_again closed (rest ++ after)

theorem closeUri_append {characters inner rest : List Char}
    (closed : closeUri characters = some (inner, rest)) :
    closeUri (characters ++ after) = some (inner, rest ++ after) := by
  rw [← append_of_closeUri closed, List.append_assoc]
  exact closeUri_again closed (rest ++ after)

theorem Clear.wordGoesOn_append (clear : Clear after) (characters : List Char) :
    wordGoesOn (characters ++ after) = wordGoesOn characters := by
  cases characters with
  | nil => exact clear.wordGoesOn_eq_false
  | cons => rfl

theorem BeginsWord.append {character : Char} {rest : List Char}
    (begins : BeginsWord character rest) (clear : Clear after) :
    BeginsWord character (rest ++ after) where
  noBracket := begins.noBracket
  noSymbol := begins.noSymbol
  single := by
    intro more points
    obtain ⟨rfl, behind⟩ := List.cons.inj points
    cases rest with
    | nil => exact clear.ne_cons (by decide) more behind
    | cons second rest =>
        obtain ⟨rfl, _⟩ := List.cons.inj behind
        exact begins.single rest rfl
  wild wildcard := by rw [clear.wordGoesOn_append, begins.wild wildcard]

theorem Cuts.append {characters : List Char} {piece : Piece} (cuts : Cuts characters piece)
    (dark : ∀ character ∈ characters.head?, Text.isBlank character = false) (clear : Clear after) :
    Cuts (characters ++ after) { piece with rest := piece.rest ++ after } := by
  cases cuts with
  | phrase closed => exact .phrase (closePhrase_append closed)
  | uri closed => exact .uri (closeUri_append closed)
  | ampAmp => exact .ampAmp
  | barBar => exact .barBar
  | dotDot => exact .dotDot
  | @star rest stops => exact .star ((clear.wordGoesOn_append rest).trans stops)
  | @questionMark rest stops => exact .questionMark ((clear.wordGoesOn_append rest).trans stops)
  | @symbol character kind rest symbol undoubled =>
      refine .symbol symbol fun doubles doubled => ?_
      -- Another ampersand or bar would have to be the first character that is appended.
      cases rest with
      | nil =>
          obtain ⟨more, same⟩ := List.head?_eq_some_iff.mp doubled
          exact clear.ne_cons (dark character rfl) more same
      | cons => exact undoubled doubles doubled
  | word begins taken => exact .word (begins.append clear) (wordPiece_append taken clear)

/-!
## The scan
-/

theorem Scans.append {offset : Nat} {characters : List Char} {tokens : List Token}
    {outcome : Except (LexFault × Nat) (List Token)} (scans : Scans offset characters (.ok tokens))
    (clear : Clear after) (later : Scans (offset + Text.utf8Length characters) after outcome) :
    Scans offset (characters ++ after) (outcome.map (tokens ++ ·)) := by
  induction scans using Scans.accepted_induction with
  | done => cases outcome <;> exact later
  | blank white _ ih =>
      rw [Text.utf8Length_cons, ← Nat.add_assoc] at later
      exact .blank white (ih later)
  | @token offset character rest piece others dark taken _ ih =>
      have cuts := (cuts_of_cut taken).append (by simpa using dark) clear
      rw [← append_of_cut taken, Text.utf8Length_append, ← Nat.add_assoc] at later
      have scanned := Scans.token dark cuts.cut_eq (ih later)
      cases outcome <;> exact scanned

/-- The outcome of a scan with so many bytes before the text that were not there. -/
def shiftOutcome (bytes : Nat) :
    Except (LexFault × Nat) (List Token) → Except (LexFault × Nat) (List Token)
  | .ok tokens => .ok (tokens.map (Token.shift bytes))
  | .error (fault, position) => .error (fault, position + bytes)

theorem Scans.shift {offset : Nat} {characters : List Char}
    {outcome : Except (LexFault × Nat) (List Token)} (scans : Scans offset characters outcome)
    (bytes : Nat) : Scans (offset + bytes) characters (shiftOutcome bytes outcome) := by
  induction scans with
  | done => exact .done
  | blank white _ ih =>
      rw [Nat.add_right_comm] at ih
      exact .blank white ih
  | fault dark failed =>
      rw [shiftOutcome, Nat.add_right_comm]
      exact .fault dark failed
  | @token offset character rest piece outcome dark taken _ ih =>
      rw [Nat.add_right_comm] at ih
      have scanned := Scans.token dark taken ih
      have moved : piece.token (offset + bytes) = (piece.token offset).shift bytes := by
        simp [Piece.token, Token.shift, Nat.add_right_comm]
      rw [moved] at scanned
      cases outcome <;> exact scanned

end Lexer

open Lexer

/-- A text that is cut into tokens, a blank and another text are cut into the tokens of both, or
fail as the other text does. -/
theorem tokenize_joined {front : String} {tokens : List Token}
    (cut : tokenize front = .ok tokens) {blank : Char} (white : Text.isBlank blank = true)
    (back : String) :
    let joined := front ++ String.singleton blank ++ back
    let bytes := (front ++ String.singleton blank).utf8ByteSize
    tokenize joined =
      match tokenize back with
      | .ok later => .ok (tokens ++ later.map (Token.shift bytes))
      | .error error => .error ⟨error.message, error.position + bytes, joined⟩ := by
  intro joined bytes
  have size : bytes = 0 + Text.utf8Length front.toList + blank.utf8Size := by
    simp [bytes, Text.utf8Length_toList]
  have characters : joined.toList = front.toList ++ blank :: back.toList := by
    simp [joined]
  have joins {outcome : Except (LexFault × Nat) (List Token)}
      (scans : Scans 0 back.toList outcome) :
      Scans 0 joined.toList ((shiftOutcome bytes outcome).map (tokens ++ ·)) := by
    have moved := scans.shift bytes
    rw [Nat.zero_add, size] at moved
    rw [characters, size]
    exact (tokenize_eq_ok_iff.mp cut).append (.blank white) (.blank white moved)
  cases cutBack : tokenize back with
  | ok later => exact tokenize_eq_ok_iff.mpr (joins (tokenize_eq_ok_iff.mp cutBack))
  | error error =>
      obtain ⟨cause, position, scans, rfl⟩ := tokenize_eq_error_iff.mp cutBack
      exact tokenize_eq_error_iff.mpr ⟨cause, position + bytes, joins scans, rfl⟩

/-- A pattern before an ideographic space, and after it a range that is cut and a phrase that is
not. -/
theorem tokenize_joined_of_wide_space :
    tokenize "é*\u3000x.. y" =
        .ok [⟨.prefixWord, "é*", 0, 3⟩, ⟨.id, "x", 6, 7⟩, ⟨.dotDot, "..", 7, 9⟩, ⟨.id, "y", 10, 11⟩] ∧
      tokenize "é*\u3000x \"y" = .error ⟨"unclosed phrase", 8, "é*\u3000x \"y"⟩ := by
  have characters : "é*".toList = ['é', '*'] := String.toList_ofList
  have cut : tokenize "é*" = .ok [⟨.prefixWord, "é*", 0, 3⟩] := by
    rw [tokenize, characters]
    rfl
  have white : Text.isBlank '\u3000' = true := by decide
  have size : ("é*" ++ String.singleton '\u3000').utf8ByteSize = 6 := rfl
  constructor
  · have ranges : tokenize "x.. y" =
        .ok [⟨.id, "x", 0, 1⟩, ⟨.dotDot, "..", 1, 3⟩, ⟨.id, "y", 4, 5⟩] := rfl
    have joined := tokenize_joined cut white "x.. y"
    rwa [ranges, size] at joined
  · have unclosed : tokenize "x \"y" = .error ⟨"unclosed phrase", 2, "x \"y"⟩ := rfl
    have joined := tokenize_joined cut white "x \"y"
    rwa [unclosed, size] at joined

end SearchQuery
