import SearchQuery.Proofs.Caret
import SearchQuery.Proofs.Token.Faults
set_option autoImplicit false

/-!
# Two carets for one fault

A fault of the scan is shown in two ways, and both point below the query. One counts the characters
before the fault to place the caret, the other one takes the byte offset for the column. So the
carets are apart by as many columns as these characters take more bytes than they are.
-/

namespace SearchQuery

namespace Text

theorem length_le_utf8Length (characters : List Char) :
    characters.length ≤ utf8Length characters := by
  induction characters with
  | nil => exact Nat.le_refl 0
  | cons character rest ih =>
      have positive : 0 < character.utf8Size := Char.utf8Size_pos character
      rw [List.length_cons, utf8Length_cons]
      omega

theorem utf8Size_eq_one_iff_ascii (character : Char) :
    character.utf8Size = 1 ↔ character.toNat < 128 := by
  rw [Char.utf8Size_eq_one_iff, UInt32.le_iff_toNat_le, Char.toNat]
  exact Nat.lt_succ_iff.symm

theorem utf8Length_eq_length_iff_ascii (characters : List Char) :
    utf8Length characters = characters.length ↔
      ∀ character ∈ characters, character.toNat < 128 := by
  induction characters with
  | nil => simp
  | cons character rest ih =>
      have positive : 0 < character.utf8Size := Char.utf8Size_pos character
      have bound := length_le_utf8Length rest
      rw [List.forall_mem_cons, ← ih, ← utf8Size_eq_one_iff_ascii, utf8Length_cons,
        List.length_cons]
      omega

theorem caretLine_inj {first second : Nat} :
    caretLine first = caretLine second ↔ first = second := by
  rw [caretLine, caretLine, String.append_left_inj, String.append_right_inj, String.ofList_inj,
    List.replicate_left_inj]

end Text

/-- What the context of an error of the scan is when the caret stands in a column. -/
def LexError.shown (error : LexError) (column : Nat) : String :=
  "query syntax error: " ++ error.message ++ "\n  " ++ error.input ++ "\n" ++
    ("  " ++ String.ofList (List.replicate column ' ') ++ "^")

theorem LexError.context_eq_shown_iff (error : LexError) (column : Nat) :
    error.context = error.shown column ↔ column = error.position := by
  have same : error.context = error.shown column ↔
      Text.caretLine error.position = Text.caretLine column := String.append_right_inj _
  rw [same, Text.caretLine_inj]
  exact eq_comm

theorem QueryError.shown_inj (error : QueryError) (query : String) {first second : Nat} :
    error.shown query first = error.shown query second ↔ first = second := by
  unfold shown
  rw [String.append_left_inj, String.append_right_inj, String.append_left_inj,
    String.append_right_inj]
  exact Text.caretLine_inj

/-- Both texts that are shown of a fault of the scan point below the query. The one that belongs to
the whole query counts the characters before the sign that is to blame, the other one their bytes,
and so the carets stand in one column exactly if all of these characters are ASCII. -/
theorem tokenize_error_carets {query : String} {error : LexError}
    (uncut : tokenize query = .error error) :
    error.input = query ∧
    ∃ before after cause, query.toList = before ++ after ∧ LexFault.BlamedOn cause after ∧
      error.message = cause.message ∧ error.position = Text.utf8Length before ∧
      (∀ column, error.context = error.shown column ↔ column = Text.utf8Length before) ∧
      (∀ column, (QueryError.ofLexError error).display? =
        some ((QueryError.ofLexError error).shown query column) ↔ column = before.length) ∧
      ((∃ column, error.context = error.shown column ∧ (QueryError.ofLexError error).display? =
          some ((QueryError.ofLexError error).shown query column)) ↔
        ∀ character ∈ before, character.toNat < 128) := by
  obtain ⟨cause, position, scans, rfl⟩ := tokenize_eq_error_iff.mp uncut
  obtain ⟨before, after, _, split, blamed, place, _⟩ := scans.exists_blamed rfl
  rw [Nat.zero_add] at place
  subst place
  -- The error as it is found here, with the whole query.
  let error : LexError := ⟨cause.message, Text.utf8Length before, query⟩
  have bytes (column : Nat) : error.context = error.shown column ↔
      column = Text.utf8Length before := error.context_eq_shown_iff column
  have characters (column : Nat) : (QueryError.ofLexError error).display? =
      some ((QueryError.ofLexError error).shown query column) ↔ column = before.length := by
    rw [QueryError.display?_eq_shown rfl split rfl, Option.some_inj, QueryError.shown_inj]
    exact eq_comm
  refine ⟨rfl, before, after, cause, split, blamed, rfl, rfl, bytes, characters, ?_⟩
  rw [← Text.utf8Length_eq_length_iff_ascii]
  constructor
  · rintro ⟨column, inBytes, inCharacters⟩
    exact ((bytes column).mp inBytes).symm.trans ((characters column).mp inCharacters)
  · intro same
    exact ⟨_, (bytes _).mpr rfl, (characters _).mpr same⟩

/-- A quote that nothing closes, behind three characters of four bytes. -/
theorem carets_of_unclosed_phrase :
    let query := "né \"a"
    let error : LexError := ⟨"unclosed phrase", 4, query⟩
    let whole := QueryError.ofLexError error
    tokenize query = .error error ∧ error.context = error.shown 4 ∧
      whole.display? = some (whole.shown query 3) ∧
      ¬ ∃ column, error.context = error.shown column ∧
        whole.display? = some (whole.shown query column) := by
  intro query error whole
  have characters : query.toList = ['n', 'é', ' ', '\"', 'a'] := String.toList_ofList
  have uncut : tokenize query = .error error := by
    rw [tokenize, characters]
    rfl
  obtain ⟨_, before, after, _, split, _, _, position, bytes, columns, agree⟩ :=
    tokenize_error_carets uncut
  -- Three characters take the four bytes, and no others do.
  obtain rfl : before = ['n', 'é', ' '] := by
    have same : before ++ after = ['n', 'é', ' '] ++ ['\"', 'a'] := split.symm.trans characters
    have rest := Text.append_right_eq_of_utf8Length_eq same (position.symm.trans (by decide))
    subst rest
    exact List.append_cancel_right same
  refine ⟨uncut, (bytes 4).mpr rfl, (columns 3).mpr rfl, fun shared => ?_⟩
  exact absurd (agree.mp shared 'é' (by simp)) (by decide)

/-- The caret of the scan stands right of the backslash that is to blame, under nothing, when a
letter of two bytes is before it. -/
theorem carets_apart_behind_accent :
    let query := "é\\"
    let error : LexError := ⟨"escape character at end of query", 2, query⟩
    let whole := QueryError.ofLexError error
    tokenize query = .error error ∧ query.toList = ['é', '\\'] ∧ error.context = error.shown 2 ∧
      whole.display? = some (whole.shown query 1) ∧
      ¬ ∃ column, error.context = error.shown column ∧
        whole.display? = some (whole.shown query column) := by
  intro query error whole
  have characters : query.toList = ['é', '\\'] := String.toList_ofList
  have uncut : tokenize query = .error error := by
    rw [tokenize, characters]
    rfl
  have split : query.toList = ['é'] ++ ['\\'] := characters
  have display : whole.display? = some (whole.shown query ['é'].length) :=
    QueryError.display?_eq_shown rfl split rfl
  refine ⟨uncut, characters, (error.context_eq_shown_iff 2).mpr rfl, display, ?_⟩
  rintro ⟨column, inBytes, inCharacters⟩
  have second : column = 2 := (error.context_eq_shown_iff column).mp inBytes
  rw [display, Option.some_inj, QueryError.shown_inj, second] at inCharacters
  exact absurd inCharacters (by decide)

end SearchQuery
