import SearchQuery.Token.Word
import SearchQuery.Text.Blank
import SearchQuery.Text.Offset
set_option autoImplicit false

/-!
# Cutting a query into tokens

`Lexer.cut` takes one token off characters that do not start with a blank; `Lexer.tokensFrom`
repeats it and keeps the byte offset. Each step takes at least one character, so as many steps as
there are characters always suffice.

The scan fails in four ways, each at the character that is to blame: a phrase or a namespace URI
that is never closed, a closing brace on its own, and a backslash with nothing after it.
-/

namespace SearchQuery

/-- Why a query cannot be cut into tokens. -/
inductive LexFault where
  | unclosedPhrase
  | unclosedUri
  | strayBrace
  | danglingEscape
deriving DecidableEq, Repr

def LexFault.message : LexFault → String
  | unclosedPhrase => "unclosed phrase"
  | unclosedUri => "unclosed namespace URI"
  | strayBrace => "unexpected '\x7d'"
  | danglingEscape => "escape character at end of query"

/-- A query that cannot be cut: what is said, the byte offset, and the query. -/
structure LexError where
  message : String
  position : Nat
  input : String
deriving DecidableEq, Repr

namespace Lexer

/-- The characters that end a word besides blanks. -/
def delimiters : List Char :=
  ['\"', '(', ')', '{', '}', '[', ']', '<', '>', ':', '=', '~', '^', '@', '%', ',', '&', '!', '|',
    '+']

def continuesWord (character : Char) : Bool :=
  !Text.isBlank character && !delimiters.contains character

/-- The kind of a token that is a single character whatever follows. -/
def symbol? : Char → Option TokenKind
  | '(' => some .lparen
  | ')' => some .rparen
  | '[' => some .lsquare
  | ']' => some .rsquare
  | '<' => some .lt
  | '>' => some .gt
  | ':' => some .colon
  | '=' => some .equals
  | '~' => some .tilde
  | '^' => some .caret
  | '@' => some .atSign
  | '%' => some .percent
  | ',' => some .comma
  | '!' => some .exclamation
  | '+' => some .plus
  | '-' => some .minus
  | '&' => some .amp
  | '|' => some .bar
  | _ => none

/-- A token without its place: kind, characters, and the characters after it. -/
structure Piece where
  kind : TokenKind
  text : List Char
  rest : List Char
deriving DecidableEq, Repr

/-- A fault and the number of bytes between the start of the token and the place of the fault. -/
structure Fault where
  cause : LexFault
  before : Nat
deriving DecidableEq, Repr

/-- Splits after the quote that closes a phrase. A backslash takes the next character with it. -/
def closePhrase : List Char → Option (List Char × List Char)
  | [] => none
  | '\"' :: rest => some (['\"'], rest)
  | ['\\'] => none
  | '\\' :: escaped :: rest =>
      (closePhrase rest).map fun (inner, after) => ('\\' :: escaped :: inner, after)
  | character :: rest =>
      (closePhrase rest).map fun (inner, after) => (character :: inner, after)

/-- Splits after the first closing brace. There are no escapes in a namespace URI. -/
def closeUri : List Char → Option (List Char × List Char)
  | [] => none
  | '}' :: rest => some (['}'], rest)
  | character :: rest =>
      (closeUri rest).map fun (inner, after) => (character :: inner, after)

/-- Puts characters in front of a word that was cut further on. -/
def Fault.shift (bytes : Nat) (fault : Fault) : Fault :=
  { fault with before := bytes + fault.before }

/-- The longest run that belongs to a word: up to a blank, a delimiter, two points in a row or the
end. A backslash takes the next character with it, whatever that is. -/
def cutWord : List Char → Except Fault (List Char × List Char)
  | [] => .ok ([], [])
  | ['\\'] => .error ⟨.danglingEscape, 0⟩
  | '\\' :: escaped :: rest =>
      match cutWord rest with
      | .ok (word, after) => .ok ('\\' :: escaped :: word, after)
      | .error fault => .error (fault.shift ('\\'.utf8Size + escaped.utf8Size))
  | '.' :: '.' :: rest => .ok ([], '.' :: '.' :: rest)
  | character :: rest =>
      if continuesWord character then
        match cutWord rest with
        | .ok (word, after) => .ok (character :: word, after)
        | .error fault => .error (fault.shift character.utf8Size)
      else
        .ok ([], character :: rest)

def wordGoesOn : List Char → Bool
  | [] => false
  | character :: _ => continuesWord character

/-- Takes a word off the front and classifies it. -/
def wordPiece (characters : List Char) : Except Fault Piece :=
  match cutWord characters with
  | .ok (word, rest) => .ok ⟨Word.classify word, word, rest⟩
  | .error fault => .error fault

/-- Takes one token off characters that start with no blank. -/
def cut : List Char → Except Fault Piece
  | '\"' :: rest =>
      match closePhrase rest with
      | some (inner, after) => .ok ⟨.phrase, '\"' :: inner, after⟩
      | none => .error ⟨.unclosedPhrase, 0⟩
  | '{' :: rest =>
      match closeUri rest with
      | some (inner, after) => .ok ⟨.uri, '{' :: inner, after⟩
      | none => .error ⟨.unclosedUri, 0⟩
  | '}' :: _ => .error ⟨.strayBrace, 0⟩
  | '&' :: '&' :: rest => .ok ⟨.ampAmp, ['&', '&'], rest⟩
  | '|' :: '|' :: rest => .ok ⟨.barBar, ['|', '|'], rest⟩
  | '.' :: '.' :: rest => .ok ⟨.dotDot, ['.', '.'], rest⟩
  | '*' :: rest => if wordGoesOn rest then wordPiece ('*' :: rest) else .ok ⟨.star, ['*'], rest⟩
  | '?' :: rest =>
      if wordGoesOn rest then wordPiece ('?' :: rest) else .ok ⟨.questionMark, ['?'], rest⟩
  | [] => wordPiece []
  | character :: rest =>
      match symbol? character with
      | some kind => .ok ⟨kind, [character], rest⟩
      | none => wordPiece (character :: rest)

theorem append_of_closePhrase {characters inner after : List Char}
    (closed : closePhrase characters = some (inner, after)) : inner ++ after = characters := by
  fun_induction closePhrase characters generalizing inner after with
  | case1 => cases closed
  | case2 rest => cases closed; rfl
  | case3 => cases closed
  | case4 escaped rest ih =>
      obtain ⟨⟨text, left⟩, found, rfl, rfl⟩ := Option.map_eq_some_iff.1 closed
      simp [ih found]
  | case5 character rest _ _ _ ih =>
      obtain ⟨⟨text, left⟩, found, rfl, rfl⟩ := Option.map_eq_some_iff.1 closed
      simp [ih found]

theorem append_of_closeUri {characters inner after : List Char}
    (closed : closeUri characters = some (inner, after)) : inner ++ after = characters := by
  fun_induction closeUri characters generalizing inner after with
  | case1 => cases closed
  | case2 rest => cases closed; rfl
  | case3 character rest _ ih =>
      obtain ⟨⟨text, left⟩, found, rfl, rfl⟩ := Option.map_eq_some_iff.1 closed
      simp [ih found]

theorem append_of_cutWord {characters word after : List Char}
    (taken : cutWord characters = .ok (word, after)) : word ++ after = characters := by
  fun_induction cutWord characters generalizing word after <;> grind

theorem append_of_wordPiece {characters : List Char} {piece : Piece}
    (taken : wordPiece characters = .ok piece) : piece.text ++ piece.rest = characters := by
  unfold wordPiece at taken
  split at taken
  · next found => cases taken; exact append_of_cutWord found
  · cases taken

/-- A token and what is left make up the characters that it was taken off. -/
theorem append_of_cut {characters : List Char} {piece : Piece}
    (taken : cut characters = .ok piece) : piece.text ++ piece.rest = characters := by
  unfold cut at taken
  split at taken
  · split at taken
    · next found => cases taken; simp [append_of_closePhrase found]
    · cases taken
  · split at taken
    · next found => cases taken; simp [append_of_closeUri found]
    · cases taken
  · cases taken
  · cases taken; rfl
  · cases taken; rfl
  · cases taken; rfl
  · split at taken
    · exact append_of_wordPiece taken
    · cases taken; rfl
  · split at taken
    · exact append_of_wordPiece taken
    · cases taken; rfl
  · exact append_of_wordPiece taken
  · split at taken
    · cases taken; rfl
    · exact append_of_wordPiece taken

/-- The tokens of characters that start at a byte offset, in at most so many steps. A step passes
one blank or takes one token. -/
def tokensFrom : Nat → Nat → List Char → Except (LexFault × Nat) (List Token)
  | 0, _, _ => .ok []
  | _ + 1, _, [] => .ok []
  | steps + 1, offset, character :: rest =>
      if Text.isBlank character then
        tokensFrom steps (offset + character.utf8Size) rest
      else
        match cut (character :: rest) with
        | .error fault => .error (fault.cause, offset + fault.before)
        | .ok piece =>
            let stop := offset + Text.utf8Length piece.text
            match tokensFrom steps stop piece.rest with
            | .error fault => .error fault
            | .ok tokens => .ok (⟨piece.kind, String.ofList piece.text, offset, stop⟩ :: tokens)

end Lexer

def tokenize (query : String) : Except LexError (List Token) :=
  let characters := query.toList
  match Lexer.tokensFrom characters.length 0 characters with
  | .ok tokens => .ok tokens
  | .error (fault, position) => .error ⟨fault.message, position, query⟩

end SearchQuery
