import SearchQuery.Proofs.Token.Scan
set_option autoImplicit false

/-!
# Tokens partition a query

The tokens of a query stand in it one after another, each at its bytes, and only blanks are left
between them. The text is followed from its first character on, where every stretch is a blank or a
token.
-/

namespace SearchQuery

/-!
## Characters and bytes
-/

namespace Text

theorem utf8Length_pos {characters : List Char} (filled : characters ≠ []) :
    0 < utf8Length characters := by
  obtain ⟨first, rest, rfl⟩ := List.exists_cons_of_ne_nil filled
  have size := first.utf8Size_pos
  rw [utf8Length_cons]
  omega

theorem utf8ByteSize_ofList (characters : List Char) :
    (String.ofList characters).utf8ByteSize = utf8Length characters := by
  rw [← utf8Length_toList, String.toList_ofList]

/-- The characters before a boundary are determined by its byte offset. -/
theorem append_right_eq_of_utf8Length_eq {before after front back : List Char}
    (split : before ++ after = front ++ back)
    (same : utf8Length before = utf8Length front) : after = back := by
  rcases List.append_eq_append_iff.mp split with ⟨extra, rfl, rfl⟩ | ⟨extra, rfl, rfl⟩
  · cases extra with
    | nil => rfl
    | cons character rest =>
        have size := utf8Length_pos (List.cons_ne_nil character rest)
        rw [utf8Length_append] at same
        omega
  · cases extra with
    | nil => rfl
    | cons character rest =>
        have size := utf8Length_pos (List.cons_ne_nil character rest)
        rw [utf8Length_append] at same
        omega

theorem isValid_of_split {query : String} {before after : List Char}
    (split : query.toList = before ++ after) :
    (String.Pos.Raw.mk (utf8Length before)).IsValid query := by
  rw [← String.ofList_toList (s := query), split, String.Pos.Raw.isValid_ofList]
  exact ⟨before.length, by rw [List.take_left, utf8ByteSize_ofList]⟩

end Text

/-!
## Tokens in a query
-/

/-- A token covers some bytes of a query, from one character boundary to another, and its text is
what stands there. -/
structure Token.Spans (query : String) (token : Token) : Prop where
  nonempty : token.start < token.stop
  inside : token.stop ≤ query.utf8ByteSize
  starts : (String.Pos.Raw.mk token.start).IsValid query
  stops : (String.Pos.Raw.mk token.stop).IsValid query
  bytes : query.toByteArray.extract token.start token.stop = token.text.toByteArray

def Token.Covers (token : Token) (offset : Nat) : Prop :=
  token.start ≤ offset ∧ offset < token.stop

/-- Tokens stand in a query in their order, with nothing but blanks around them, and no word among
them could be longer. -/
structure Partitions (query : String) (tokens : List Token) : Prop where
  spans : ∀ token ∈ tokens, token.Spans query
  ordered : tokens.Pairwise fun first second => first.stop ≤ second.start
  gaps : ∀ before character after, query.toList = before ++ character :: after →
    (∀ token ∈ tokens, ¬ token.Covers (Text.utf8Length before)) → Text.isBlank character = true
  maximal : ∀ token ∈ tokens, token.kind.isWord = true → ∀ before after,
    query.toList = before ++ after → Text.utf8Length before = token.stop → Lexer.EndsWord after

namespace Lexer

/-- Characters from a byte offset on as blanks and tokens. -/
inductive Layout : Nat → List Char → List Token → Prop where
  | done {offset : Nat} : Layout offset [] []
  | blank {offset : Nat} {character : Char} {rest : List Char} {tokens : List Token} :
      Text.isBlank character = true → Layout (offset + character.utf8Size) rest tokens →
      Layout offset (character :: rest) tokens
  | token {offset : Nat} {piece : Piece} {tokens : List Token} :
      piece.Full → Layout (offset + Text.utf8Length piece.text) piece.rest tokens →
      Layout offset (piece.text ++ piece.rest) (piece.token offset :: tokens)

theorem Scans.layout {offset : Nat} {characters : List Char} {tokens : List Token}
    (scans : Scans offset characters (.ok tokens)) : Layout offset characters tokens := by
  induction scans using Scans.accepted_induction with
  | done => exact .done
  | blank white _ ih => exact .blank white ih
  | token dark taken _ ih =>
      rw [← append_of_cut taken]
      exact .token (full_of_cut dark taken) ih

/-- A token between the characters before it and after it. -/
structure Placed (offset : Nat) (characters : List Char) (token : Token) (front back : List Char) :
    Prop where
  split : characters = front ++ (token.text.toList ++ back)
  filled : token.text.toList ≠ []
  start : token.start = offset + Text.utf8Length front
  stop : token.stop = token.start + Text.utf8Length token.text.toList
  maximal : token.kind.isWord = true → EndsWord back

theorem Placed.after {offset : Nat} {characters front back : List Char} {token : Token}
    (stretch : List Char)
    (placed : Placed (offset + Text.utf8Length stretch) characters token front back) :
    Placed offset (stretch ++ characters) token (stretch ++ front) back where
  split := by rw [placed.split, List.append_assoc]
  filled := placed.filled
  start := by rw [placed.start, Text.utf8Length_append, Nat.add_assoc]
  stop := placed.stop
  maximal := placed.maximal

namespace Layout

variable {offset : Nat} {characters : List Char} {tokens : List Token}

theorem placed (layout : Layout offset characters tokens) :
    ∀ token ∈ tokens, ∃ front back, Placed offset characters token front back := by
  induction layout with
  | done => simp
  | @blank offset character rest tokens _ _ ih =>
      intro token member
      obtain ⟨front, back, placed⟩ := ih token member
      exact ⟨character :: front, back, placed.after [character]⟩
  | @token offset piece tokens full _ ih =>
      intro token member
      rcases List.mem_cons.mp member with rfl | member
      · have text := piece.toList_text_token offset
        refine ⟨[], piece.rest, ⟨?_, ?_, rfl, ?_, full.maximal⟩⟩
        · rw [text, List.nil_append]
        · rw [text]
          exact full.text_ne_nil
        · rw [text]
          rfl
      · obtain ⟨front, back, placed⟩ := ih token member
        exact ⟨piece.text ++ front, back, placed.after piece.text⟩

theorem ordered (layout : Layout offset characters tokens) :
    tokens.Pairwise fun first second => first.stop ≤ second.start := by
  induction layout with
  | done => exact .nil
  | blank _ _ ih => exact ih
  | @token offset piece tokens _ later ih =>
      refine List.pairwise_cons.mpr ⟨fun second member => ?_, ih⟩
      obtain ⟨front, _, placed⟩ := later.placed second member
      rw [placed.start]
      exact Nat.le_add_right _ _

/-- A character that no token covers is blank. -/
theorem isBlank_of_uncovered (layout : Layout offset characters tokens) :
    ∀ {before : List Char} {character : Char} {after : List Char},
      characters = before ++ character :: after →
      (∀ token ∈ tokens, ¬ token.Covers (offset + Text.utf8Length before)) →
      Text.isBlank character = true := by
  induction layout with
  | done =>
      intro before character after split
      simp at split
  | blank white _ ih =>
      intro before character after split uncovered
      cases before with
      | nil =>
          cases split
          exact white
      | cons first before =>
          cases split
          refine ih rfl ?_
          simpa only [Text.utf8Length_cons, Nat.add_assoc] using uncovered
  | @token offset piece tokens _ _ ih =>
      intro before character after split uncovered
      rcases List.append_eq_append_iff.mp split with ⟨passed, rfl, later⟩ | ⟨ahead, text, later⟩
      -- The character comes after the token.
      · refine ih later fun token member covers => ?_
        rw [Nat.add_assoc, ← Text.utf8Length_append] at covers
        exact uncovered token (List.mem_cons_of_mem _ member) covers
      -- The character is in the token, or is the first one after it.
      · cases ahead with
        | nil =>
            rw [List.append_nil] at text
            have later : piece.rest = [] ++ character :: after := by simpa using later.symm
            refine ih later fun token member covers => ?_
            rw [text, Text.utf8Length_nil, Nat.add_zero] at covers
            exact uncovered token (List.mem_cons_of_mem _ member) covers
        | cons first ahead =>
            have covers : (piece.token offset).Covers (offset + Text.utf8Length before) := by
              have size := first.utf8Size_pos
              refine ⟨Nat.le_add_right _ _, ?_⟩
              rw [Piece.token, text, Text.utf8Length_append, Text.utf8Length_cons]
              dsimp only
              omega
            exact absurd covers (uncovered _ List.mem_cons_self)

end Layout

theorem Placed.spans {query : String} {token : Token} {front back : List Char}
    (placed : Placed 0 query.toList token front back) : token.Spans query := by
  have size := Text.utf8Length_pos placed.filled
  have start : token.start = Text.utf8Length front := by rw [placed.start, Nat.zero_add]
  have stop : token.stop = Text.utf8Length (front ++ token.text.toList) := by
    rw [placed.stop, start, Text.utf8Length_append]
  have split : query.toList = front ++ token.text.toList ++ back := by
    rw [List.append_assoc]
    exact placed.split
  have whole : query = String.ofList front ++ token.text ++ String.ofList back := by
    rw [← String.ofList_toList (s := query), split, String.ofList_append, String.ofList_append,
      String.ofList_toList]
  refine ⟨by rw [placed.stop]; omega, ?_, ?_, ?_, ?_⟩
  · rw [stop, ← Text.utf8Length_toList, split, Text.utf8Length_append (front ++ _)]
    exact Nat.le_add_right _ _
  · rw [start]
    exact Text.isValid_of_split placed.split
  · rw [stop]
    exact Text.isValid_of_split split
  · have first : token.start = (String.ofList front).toByteArray.size + 0 := by
      rw [start, String.size_toByteArray, Text.utf8ByteSize_ofList, Nat.add_zero]
    have last : token.stop =
        (String.ofList front).toByteArray.size + token.text.toByteArray.size := by
      rw [stop, String.size_toByteArray, Text.utf8ByteSize_ofList, String.size_toByteArray,
        Text.utf8Length_append, Text.utf8Length_toList]
    rw [whole, String.toByteArray_append, String.toByteArray_append, ByteArray.append_assoc, first,
      last, ByteArray.extract_append_size_add' rfl, ByteArray.extract_append_eq_left rfl]

end Lexer

/-- The scan of a query ends by itself after steps that each take a character, and yields what
`tokenize` does. If that is tokens, they partition the query. -/
theorem tokenize_partitions (query : String) :
    (∃ outcome, Lexer.Scans 0 query.toList outcome ∧
      tokenize query =
        outcome.mapError fun fault => ⟨fault.1.message, fault.2, query⟩) ∧
    (∀ character rest piece, Text.isBlank character = false →
      Lexer.cut (character :: rest) = .ok piece →
      piece.text ≠ [] ∧ piece.text ++ piece.rest = character :: rest) ∧
    ∀ tokens, tokenize query = .ok tokens → Partitions query tokens := by
  have scans := Lexer.tokensFrom_scans 0 (Nat.le_refl query.toList.length)
  have yields : tokenize query =
      (Lexer.tokensFrom query.toList.length 0 query.toList).mapError fun fault =>
        ⟨fault.1.message, fault.2, query⟩ := by
    rw [tokenize]
    split <;> next same => rw [same]; rfl
  refine ⟨⟨_, scans, yields⟩, fun character rest piece dark taken => ?_, fun tokens accepted => ?_⟩
  · exact ⟨(Lexer.full_of_cut dark taken).text_ne_nil, Lexer.append_of_cut taken⟩
  · have layout := (tokenize_eq_ok_iff.mp accepted).layout
    refine ⟨fun token member => ?_, layout.ordered,
      fun before character after split uncovered => ?_,
      fun token member word before after split ends => ?_⟩
    · obtain ⟨front, back, placed⟩ := layout.placed token member
      exact placed.spans
    · exact layout.isBlank_of_uncovered split (by simpa using uncovered)
    · obtain ⟨front, back, placed⟩ := layout.placed token member
      have whole : query.toList = front ++ token.text.toList ++ back := by
        rw [List.append_assoc]
        exact placed.split
      have reaches : Text.utf8Length before = Text.utf8Length (front ++ token.text.toList) := by
        rw [ends, placed.stop, placed.start, Text.utf8Length_append, Nat.zero_add]
      rw [Text.append_right_eq_of_utf8Length_eq (split.symm.trans whole) reaches]
      exact placed.maximal word

/-- The tokens of a query with letters of two bytes, two points that end a word, an escaped blank
inside a word, and a blank outside. -/
theorem partition_of_accented_range :
    let query := "é*..ñ\\  \"a b\""
    let tokens : List Token :=
      [⟨.prefixWord, "é*", 0, 3⟩, ⟨.dotDot, "..", 3, 5⟩, ⟨.word, "ñ\\ ", 5, 9⟩,
        ⟨.phrase, "\"a b\"", 10, 15⟩]
    let word : Lexer.Piece := ⟨.word, ['ñ', '\\', ' '], [' ', '\"', 'a', ' ', 'b', '\"']⟩
    (tokenize query = .ok tokens ∧ Partitions query tokens) ∧
      Lexer.cut ['ñ', '\\', ' ', ' ', '\"', 'a', ' ', 'b', '\"'] = .ok word ∧ word.text ≠ [] ∧
      word.text ++ word.rest = ['ñ', '\\', ' ', ' ', '\"', 'a', ' ', 'b', '\"'] := by
  intro query tokens word
  have partitions := tokenize_partitions query
  have characters : query.toList =
      ['é', '*', '.', '.', 'ñ', '\\', ' ', ' ', '\"', 'a', ' ', 'b', '\"'] := String.toList_ofList
  have accepted : tokenize query = .ok tokens := by
    rw [tokenize, characters]
    rfl
  exact ⟨⟨accepted, partitions.2.2 tokens accepted⟩, rfl,
    partitions.2.1 'ñ' _ word (by decide) rfl⟩

end SearchQuery
