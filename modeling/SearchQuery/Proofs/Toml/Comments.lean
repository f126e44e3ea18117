import SearchQuery.Configuration.File
import SearchQuery.Configuration.Template
set_option autoImplicit false

/-!
# Documents of comments

A document of blank lines and comments is read, and it says nothing. The templates of settings files
are such documents, whatever lines they are made of.
-/

namespace SearchQuery

namespace Toml

open Quoted (isControl afterNewline?)

/-- A text that may stand in a comment. -/
def IsPlain (text : List Char) : Prop :=
  ∀ character ∈ text, isControl character = false

instance (text : List Char) : Decidable (IsPlain text) :=
  decidable_of_iff ((text.all fun character => !isControl character) = true) (by simp [IsPlain])

/-- A text of blank lines and comments. -/
inductive Silent : List Char → Prop where
  | done : Silent []
  | blank {rest : List Char} : Silent rest → Silent ('\n' :: rest)
  | comment {comment rest : List Char} :
      IsPlain comment → Silent rest → Silent ('#' :: comment ++ '\n' :: rest)

theorem afterNewline?_of_not_control {character : Char} (rest : List Char)
    (plain : isControl character = false) : afterNewline? (character :: rest) = none := by
  unfold afterNewline?
  split
  · rename_i same
    cases same
    exact absurd plain (by decide)
  · rename_i same
    cases same
    exact absurd plain (by decide)
  · rfl

theorem skipComment_append_newline {comment : List Char} (plain : IsPlain comment)
    (rest : List Char) : skipComment (comment ++ '\n' :: rest) = .ok ('\n' :: rest) := by
  induction comment with
  | nil => rfl
  | cons character comment ih =>
      obtain ⟨here, behind⟩ := List.forall_mem_cons.mp plain
      rw [List.cons_append, skipComment, afterNewline?_of_not_control _ here, here]
      exact ih behind

theorem endLine_comment {comment : List Char} (plain : IsPlain comment) (rest : List Char) :
    endLine ('#' :: comment ++ '\n' :: rest) = .ok rest := by
  rw [endLine]
  change (skipComment (comment ++ '\n' :: rest) >>= _) = _
  rw [skipComment_append_newline plain]
  rfl

theorem lines_of_silent {text : List Char} (silent : Silent text) (steps : Nat) (draft : Draft) :
    lines steps draft text = .ok draft := by
  induction silent generalizing steps with
  | done => cases steps <;> rfl
  | blank _ ih =>
      cases steps with
      | zero => rfl
      | succ steps => exact ih steps
  | @comment comment rest plain _ ih =>
      cases steps with
      | zero => rfl
      | succ steps =>
          change (endLine ('#' :: comment ++ '\n' :: rest) >>= lines steps draft) = _
          rw [endLine_comment plain]
          exact ih steps

theorem Silent.withoutMark_eq {text : List Char} (silent : Silent text) :
    withoutMark text = text := by
  cases silent <;> rfl

theorem parse_of_silent {text : String} (silent : Silent text.toList) : parse text = .ok [] := by
  rw [parse, silent.withoutMark_eq, lines_of_silent silent]
  rfl

end Toml

namespace Template

open Toml (IsPlain Silent)

theorem silent_append_commented {line : String} (plain : IsPlain line.toList) {rest : List Char}
    (silent : Silent rest) : Silent ((commented line).toList ++ '\n' :: rest) := by
  rw [commented]
  split
  · rename_i empty
    rw [empty]
    exact .blank silent
  · rename_i comment marked
    rw [marked] at plain ⊢
    exact .comment (List.forall_mem_cons.mp plain).2 silent
  · have marked : IsPlain (' ' :: line.toList) := List.forall_mem_cons.mpr ⟨by decide, plain⟩
    rw [String.toList_append]
    exact .comment marked silent

theorem silent_ofLines {lines : List String} (plain : ∀ line ∈ lines, IsPlain line.toList) :
    Silent (ofLines lines).toList := by
  induction lines with
  | nil => exact .done
  | cons line lines ih =>
      obtain ⟨here, behind⟩ := List.forall_mem_cons.mp plain
      have text : (ofLines (line :: lines)).toList =
          (commented line).toList ++ '\n' :: (ofLines lines).toList := by
        simp [ofLines]
      rw [text]
      exact silent_append_commented here (ih behind)

/-- A template changes nothing. -/
theorem parse_ofLines {lines : List String} (plain : ∀ line ∈ lines, IsPlain line.toList) :
    SettingsFile.parse (ofLines lines) = .ok {} := by
  rw [SettingsFile.parse, Toml.parse_of_silent (silent_ofLines plain)]
  rfl

-- Deciding about the characters of a text is slow unless they are given as a list.
theorem isPlain_toList_ofList {characters : List Char} (plain : IsPlain characters) :
    IsPlain (String.ofList characters).toList := by
  rwa [String.toList_ofList]

theorem parse_localFile : SettingsFile.parse localFile = .ok {} := by
  apply parse_ofLines
  unfold localLines
  repeat refine List.forall_mem_cons.mpr ⟨isPlain_toList_ofList (by decide +kernel), ?_⟩
  exact List.forall_mem_nil _

theorem parse_globalFile : SettingsFile.parse globalFile = .ok {} := by
  apply parse_ofLines
  unfold globalLines
  repeat refine List.forall_mem_cons.mpr ⟨isPlain_toList_ofList (by decide +kernel), ?_⟩
  exact List.forall_mem_nil _

end Template

end SearchQuery
