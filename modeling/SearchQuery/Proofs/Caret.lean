import SearchQuery.Error.Message
import SearchQuery.Proofs.Accepted
import SearchQuery.Proofs.Speculation.Trials
import SearchQuery.Proofs.Token.Partition
set_option autoImplicit false

/-!
# Where the caret stands

Wherever a query fails, the offset that is reported is between two characters of it, so the caret
has a column: the number of characters before the offset. Offsets of the scan are counted from where
a token starts, and those of the grammar are the bounds of tokens.
-/

namespace SearchQuery

/-- An offset between two characters, or at an end. -/
def Text.Boundary (characters : List Char) (offset : Nat) : Prop :=
  ∃ before after, characters = before ++ after ∧ Text.utf8Length before = offset

namespace Text.Boundary

theorem zero (characters : List Char) : Boundary characters 0 :=
  ⟨[], characters, rfl, rfl⟩

theorem behind {characters : List Char} {offset : Nat} (boundary : Boundary characters offset)
    (stretch : List Char) :
    Boundary (stretch ++ characters) (Text.utf8Length stretch + offset) := by
  obtain ⟨before, after, rfl, rfl⟩ := boundary
  exact ⟨stretch ++ before, after, (List.append_assoc ..).symm, Text.utf8Length_append ..⟩

end Text.Boundary

namespace Lexer

open Text

/-!
## Faults of the scan
-/

theorem boundary_of_cutWord {characters : List Char} {fault : Fault}
    (failed : cutWord characters = .error fault) : Boundary characters fault.before := by
  fun_induction cutWord characters generalizing fault with
  | case1 => cases failed
  | case2 =>
      cases failed
      exact .zero _
  | case3 => cases failed
  | case4 escaped rest inner again ih =>
      cases failed
      exact (ih again).behind ['\\', escaped]
  | case5 => cases failed
  | case6 => cases failed
  | case7 character rest _ _ _ _ inner again ih =>
      cases failed
      exact (ih again).behind [character]
  | case8 => cases failed

theorem boundary_of_wordPiece {characters : List Char} {fault : Fault}
    (failed : wordPiece characters = .error fault) : Boundary characters fault.before := by
  unfold wordPiece at failed
  split at failed
  · cases failed
  · next again =>
      cases failed
      exact boundary_of_cutWord again

/-- Only the escape at the end of a word is not to be blamed on the start of the token. -/
theorem boundary_of_cut {characters : List Char} {fault : Fault}
    (failed : cut characters = .error fault) : Boundary characters fault.before := by
  unfold cut at failed
  split at failed
  · split at failed <;> cases failed
    exact .zero _
  · split at failed <;> cases failed
    exact .zero _
  · cases failed
    exact .zero _
  · cases failed
  · cases failed
  · cases failed
  · split at failed
    · exact boundary_of_wordPiece failed
    · cases failed
  · split at failed
    · exact boundary_of_wordPiece failed
    · cases failed
  · exact boundary_of_wordPiece failed
  · split at failed
    · cases failed
    · exact boundary_of_wordPiece failed

theorem Scans.boundary {offset : Nat} {characters : List Char}
    {outcome : Except (LexFault × Nat) (List Token)} (scans : Scans offset characters outcome)
    {cause : LexFault} {position : Nat} (failed : outcome = .error (cause, position)) :
    ∃ inside, position = offset + inside ∧ Boundary characters inside := by
  induction scans with
  | done => cases failed
  | @blank offset character rest _ _ _ ih =>
      obtain ⟨inside, rfl, boundary⟩ := ih failed
      refine ⟨utf8Length [character] + inside, ?_, boundary.behind [character]⟩
      rw [utf8Length_cons, utf8Length_nil, Nat.add_zero, Nat.add_assoc]
  | @fault offset _ _ fault _ cutFailed =>
      cases failed
      exact ⟨fault.before, rfl, boundary_of_cut cutFailed⟩
  | @token offset character rest piece later _ taken _ ih =>
      cases later with
      | ok tokens => cases failed
      | error fault =>
          cases failed
          obtain ⟨inside, rfl, boundary⟩ := ih rfl
          refine ⟨utf8Length piece.text + inside, Nat.add_assoc .., ?_⟩
          rw [← append_of_cut taken]
          exact boundary.behind piece.text

/-!
## Bounds of tokens
-/

theorem Layout.boundary_start {characters : List Char} {tokens : List Token}
    (layout : Layout 0 characters tokens) {token : Token} (member : token ∈ tokens) :
    Boundary characters token.start := by
  obtain ⟨front, back, placed⟩ := layout.placed token member
  exact ⟨front, _, placed.split, by rw [placed.start, Nat.zero_add]⟩

theorem Layout.boundary_stop {characters : List Char} {tokens : List Token}
    (layout : Layout 0 characters tokens) {token : Token} (member : token ∈ tokens) :
    Boundary characters token.stop := by
  obtain ⟨front, back, placed⟩ := layout.placed token member
  refine ⟨front ++ token.text.toList, back, ?_, ?_⟩
  · rw [placed.split, List.append_assoc]
  · rw [placed.stop, placed.start, Text.utf8Length_append, Nat.zero_add]

/-- What is ahead in a token list begins at a boundary of the text. -/
theorem Layout.boundary_offsetAhead {characters : List Char} {tokens ahead : List Token}
    (layout : Layout 0 characters tokens) (suffix : ahead <:+ tokens) :
    Boundary characters (offsetAhead tokens ahead) := by
  cases ahead with
  | cons next rest => exact layout.boundary_start (suffix.subset List.mem_cons_self)
  | nil =>
      rw [offsetAhead]
      cases last : tokens.getLast? with
      | none => exact .zero _
      | some token => exact layout.boundary_stop (List.mem_of_getLast? last)

end Lexer

/-- A parse error tells what was found where it points: a token, at its start, or the end, where the
last token stops. -/
structure ParseError.PointsInto (error : ParseError) (tokens : List Token) : Prop where
  actual : error.actual = tokens[error.position.index]?
  start : ∀ token, error.actual = some token → error.position.offset = token.start
  stop : error.actual = none →
    error.position.offset = (tokens.getLast?.map Token.stop).getD 0

theorem Failure.pointsInto_locate {tokens : List Token} {failure : Failure}
    (suffix : failure.ahead <:+ tokens) : (failure.locate tokens).PointsInto tokens := by
  obtain ⟨cause, expected, ahead, rules⟩ := failure
  obtain ⟨taken, rfl⟩ := suffix
  constructor
  case actual =>
    rw [locate]
    dsimp only
    rw [List.length_append, Nat.add_sub_cancel, List.getElem?_append_right (Nat.le_refl _),
      Nat.sub_self, List.head?_eq_getElem?]
  case start =>
    intro token found
    obtain ⟨rest, rfl⟩ := List.head?_eq_some_iff.mp found
    rfl
  case stop =>
    intro ended
    obtain rfl := List.head?_eq_none_iff.mp ended
    rfl

theorem parse_eq_error_iff {settings : Settings} {query : String} {error : QueryError} :
    parse settings query = .error error ↔
      (∃ lexError, tokenize query = .error lexError ∧ .ofLexError lexError = error) ∨
        ∃ tokens parseError, tokenize query = .ok tokens ∧
          parseTokens settings tokens = .error parseError ∧
          (QueryError.ofParseError parseError).withQuery query = error := by
  rw [parse]
  cases tokenize query with
  | error lexError => simp
  | ok tokens => cases parsed : parseTokens settings tokens <;> simp [parsed]

/-- What is shown of an error and its query when the caret stands in a column. -/
def QueryError.shown (error : QueryError) (query : String) (column : Nat) : String :=
  "query syntax error: " ++ error.message ++ "\n" ++
    ("  " ++ query ++ "\n" ++ ("  " ++ String.ofList (List.replicate column ' ') ++ "^") ++ "\n") ++
    (error.hint?.map ("hint: " ++ ·)).getD ""

theorem QueryError.display?_eq_shown {error : QueryError} {query : String}
    {before after : List Char} (known : error.query = some query)
    (split : query.toList = before ++ after)
    (position : Text.utf8Length before = error.position) :
    error.display? = some (error.shown query before.length) := by
  rw [display?, excerpt?, known]
  dsimp only
  rw [split, ← position, Text.column?_append]
  rfl

/-- Every query that fails is shown with a caret, below the query and as many characters to the
right as stand before the offset that is reported. If tokens were read, the offset is the start of
the token that was found, or where the last token stops. -/
theorem parse_error_display {settings : Settings} {query : String} {error : QueryError}
    (rejected : parse settings query = .error error) :
    error.position ≤ query.utf8ByteSize ∧
    (String.Pos.Raw.mk error.position).IsValid query ∧
    (∃ before after, query.toList = before ++ after ∧ Text.utf8Length before = error.position ∧
      error.display? = some (error.shown query before.length)) ∧
    ∀ parseError, error.parseError? = some parseError →
      ∃ tokens, tokenize query = .ok tokens ∧ parseError.PointsInto tokens ∧
        error.position = parseError.position.offset := by
  suffices placed : error.query = some query ∧ Text.Boundary query.toList error.position ∧
      ∀ parseError, error.parseError? = some parseError →
        ∃ tokens, tokenize query = .ok tokens ∧ parseError.PointsInto tokens ∧
          error.position = parseError.position.offset by
    obtain ⟨known, ⟨before, after, split, position⟩, found⟩ := placed
    refine ⟨?inside, ?valid, ⟨before, after, split, position, ?shown⟩, found⟩
    case inside =>
      rw [← position, ← Text.utf8Length_toList, split, Text.utf8Length_append]
      exact Nat.le_add_right _ _
    case valid =>
      rw [← position]
      exact Text.isValid_of_split split
    case shown => exact QueryError.display?_eq_shown known split position
  rcases parse_eq_error_iff.mp rejected with
    ⟨lexError, uncut, rfl⟩ | ⟨tokens, parseError, cut, unread, rfl⟩
  · obtain ⟨cause, position, scans, rfl⟩ := tokenize_eq_error_iff.mp uncut
    obtain ⟨inside, rfl, boundary⟩ := scans.boundary rfl
    refine ⟨rfl, ?_, nofun⟩
    rw [Nat.zero_add]
    exact boundary
  · have layout := (tokenize_eq_ok_iff.mp cut).layout
    obtain ⟨failure, read, rfl⟩ := parseTokens_eq_error_iff.mp unread
    have run := readTokens_eq_error_iff.mp read
    have suffix : failure.ahead <:+ tokens := by
      rw [← Reading.stop_eq_of_error run]
      exact (readQuery_committed settings.mode.dialect tokens).stops
    refine ⟨rfl, layout.boundary_offsetAhead suffix, fun parseError same => ?_⟩
    cases same
    exact ⟨tokens, cut, Failure.pointsInto_locate suffix, rfl⟩

/-- A word in place of a number, after letters of two bytes: the caret stands two columns before the
byte offset. -/
theorem caret_behind_accented_letters :
    let query := "né ñ^x"
    ∃ error, parse .standard query = .error error ∧ error.position = 7 ∧
      7 ≤ query.utf8ByteSize ∧ (String.Pos.Raw.mk 7).IsValid query ∧
      error.display? = some (error.shown query 5) ∧
      ∀ parseError, error.parseError? = some parseError →
        ∃ tokens, tokenize query = .ok tokens ∧ parseError.PointsInto tokens ∧
          error.position = parseError.position.offset := by
  intro query
  have characters : query.toList = ['n', 'é', ' ', 'ñ', '^', 'x'] := String.toList_ofList
  have cut : tokenize query = .ok [⟨.word, "né", 0, 3⟩, ⟨.word, "ñ", 4, 6⟩, ⟨.caret, "^", 6, 7⟩,
      ⟨.id, "x", 7, 8⟩] := by
    rw [tokenize, characters]
    rfl
  obtain ⟨error, rejected, position⟩ : ∃ error, parse .standard query = .error error ∧
      error.position = 7 := by
    rw [parse, cut]
    exact ⟨_, rfl, rfl⟩
  obtain ⟨inside, valid, ⟨before, after, split, bytes, shown⟩, found⟩ :=
    parse_error_display rejected
  rw [position] at inside valid bytes
  -- Five characters take the seven bytes, and no others do.
  obtain ⟨rfl, rfl⟩ : before = ['n', 'é', ' ', 'ñ', '^'] ∧ after = ['x'] := by
    have whole : before ++ after = ['n', 'é', ' ', 'ñ', '^'] ++ ['x'] := split.symm.trans characters
    have rest := Text.append_right_eq_of_utf8Length_eq whole (bytes.trans (by decide))
    subst rest
    exact ⟨List.append_cancel_right whole, rfl⟩
  exact ⟨error, rejected, position, inside, valid, shown, found⟩

end SearchQuery
