set_option autoImplicit false

/-!
# Byte offsets and columns

Positions in a text are counted in bytes of its UTF-8 form, and a caret is placed by counting
characters. `column?` converts between the two. An offset past the end stands at the end; an
offset inside a character has no column, and that case is kept apart instead of being rounded.
-/

namespace SearchQuery.Text

/-- The number of bytes that characters take in UTF-8. -/
def utf8Length : List Char → Nat
  | [] => 0
  | character :: rest => character.utf8Size + utf8Length rest

/-- The number of characters before a byte offset; `none` when the offset is inside a character. -/
def column? : List Char → Nat → Option Nat
  | _, 0 => some 0
  | [], _ + 1 => some 0
  | character :: rest, offset + 1 =>
      if character.utf8Size ≤ offset + 1 then
        (column? rest (offset + 1 - character.utf8Size)).map (· + 1)
      else
        none

/-- A line that points at a column: two blanks of margin, the column in blanks, a caret. -/
def caretLine (column : Nat) : String :=
  "  " ++ String.ofList (List.replicate column ' ') ++ "^"

@[simp]
theorem utf8Length_nil : utf8Length [] = 0 := rfl

@[simp]
theorem utf8Length_cons (character : Char) (rest : List Char) :
    utf8Length (character :: rest) = character.utf8Size + utf8Length rest := rfl

theorem utf8Length_append (before after : List Char) :
    utf8Length (before ++ after) = utf8Length before + utf8Length after := by
  induction before with
  | nil => simp
  | cons character rest ih => simp only [List.cons_append, utf8Length_cons, ih, Nat.add_assoc]

/-- The length of the characters of a text is the number of bytes that the text takes. -/
theorem utf8Length_toList (text : String) : utf8Length text.toList = text.utf8ByteSize := by
  have general : ∀ characters : List Char,
      utf8Length characters = (String.ofList characters).utf8ByteSize := by
    intro characters
    induction characters with
    | nil => rfl
    | cons character rest ih =>
        rw [utf8Length_cons, ih, ← List.singleton_append, String.ofList_append,
          String.utf8ByteSize_append, ← String.singleton_eq_ofList,
          String.utf8ByteSize_singleton]
  rw [general, String.ofList_toList]

/-- The offset at which a text continues has as many characters before it as were passed. -/
theorem column?_append (before after : List Char) :
    column? (before ++ after) (utf8Length before) = some before.length := by
  induction before with
  | nil => cases after <;> rfl
  | cons character rest ih =>
      have positive : 0 < character.utf8Size := Char.utf8Size_pos character
      obtain ⟨size, total⟩ : ∃ size, utf8Length (character :: rest) = size + 1 :=
        ⟨utf8Length (character :: rest) - 1, by rw [utf8Length_cons]; omega⟩
      have bound : character.utf8Size ≤ size + 1 := by rw [← total, utf8Length_cons]; omega
      have remaining : size + 1 - character.utf8Size = utf8Length rest := by
        rw [← total, utf8Length_cons]; omega
      rw [total, List.cons_append, column?, if_pos bound, remaining, ih]
      rfl

end SearchQuery.Text
