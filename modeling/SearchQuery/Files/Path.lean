set_option autoImplicit false

/-!
# Paths

A path is a text; its components are what stands between slashes. `parent?` works on the text alone,
as written: it looks at no directory, keeps what stands before the last component, and knows nothing
of links.
-/

namespace SearchQuery.Path

/-- The parts of a text between slashes; one more than there are slashes. -/
def split : List Char → List (List Char)
  | [] => [[]]
  | character :: rest =>
      if character = '/' then [] :: split rest
      else
        match split rest with
        | [] => [[character]]
        | part :: parts => (character :: part) :: parts

/-- The parts with slashes between them. -/
def join : List (List Char) → List Char
  | [] => []
  | [part] => part
  | part :: parts => part ++ '/' :: join parts

theorem split_ne_nil (characters : List Char) : split characters ≠ [] := by
  cases characters with
  | nil => simp [split]
  | cons character rest =>
      simp only [split]
      split
      · simp
      · split <;> simp

/-- The parts of a text with slashes between them are the text. -/
theorem join_split (characters : List Char) : join (split characters) = characters := by
  induction characters with
  | nil => rfl
  | cons character rest ih =>
      rw [split]
      cases parts : split rest with
      | nil => exact absurd parts (split_ne_nil rest)
      | cons part others =>
          rw [parts] at ih
          by_cases slash : character = '/'
          · subst slash
            simp [join, ih]
          · rw [if_neg slash]
            cases others with
            | nil => simp_all [join]
            | cons => simp_all [join]

/-- Parts that name nothing: between two slashes, or a single point. -/
def isEmptyPart (part : List Char) : Bool :=
  part.isEmpty || part == ['.']

/-- The parts without those at the end that name nothing. -/
def trimParts (parts : List (List Char)) : List (List Char) :=
  (parts.reverse.dropWhile isEmptyPart).reverse

/-- What stands before the first component and belongs to none: a slash, or a point that a slash or
nothing follows. -/
def lead : List Char → List Char
  | '/' :: _ => ['/']
  | ['.'] => ['.']
  | '.' :: '/' :: _ => ['.']
  | _ => []

/-- The path without its last component. The empty path and the root have none to leave out. -/
def parent? (path : String) : Option String :=
  let characters := path.toList
  let before := lead characters
  match (trimParts (split (characters.drop before.length))).reverse with
  | _ :: others => some (String.ofList (before ++ join (trimParts others.reverse)))
  | [] => if before = ['.'] then some "" else none

/-- The path of components below the root. -/
def ofComponents (components : List String) : String :=
  "/" ++ "/".intercalate components

/-- The components of an absolute path, those that name nothing left out, except that a point at the
end is kept where the path ends in a slash or a point: the path then names a directory. -/
def components (path : String) : List String :=
  let parts := split path.toList
  let named := (parts.filter fun part => !isEmptyPart part).map String.ofList
  if (parts.getLast?.map isEmptyPart).getD true then named ++ ["."] else named

/-- The directories on the way to the root, given by their components, the nearest first. -/
def ancestors : List String → List (List String)
  | [] => [[]]
  | component :: rest => (ancestors rest).map (component :: ·) ++ [[]]

/-- A path below a directory. An absolute path is itself. -/
def below (directory path : String) : String :=
  match path.toList with
  | '/' :: _ => path
  | _ =>
      if directory.toList.getLast? = some '/' then directory ++ path
      else directory ++ "/" ++ path

end SearchQuery.Path
