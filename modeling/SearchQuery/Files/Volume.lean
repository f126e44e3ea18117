import SearchQuery.Files.Path
set_option autoImplicit false

/-!
# Directory trees

A volume gives what some paths stand for, each path being the list of its components below the root.
Whatever is not listed does not exist, except the root, which is a directory always. The first entry
of a path counts.

A file holds text, or bytes that are no text.
-/

namespace SearchQuery

/-- What a file holds. -/
inductive Content where
  | text (text : String)
  | malformed (bytes : List UInt8)
deriving DecidableEq, Repr, Inhabited

inductive Entry where
  | file (content : Content)
  | directory
deriving DecidableEq, Repr, Inhabited

/-- Why a file cannot be read or written. -/
inductive FileFault where
  | notFound
  | notDirectory
  | isDirectory
  | notText
deriving DecidableEq, Repr

/-- What is said about a fault. -/
def FileFault.message : FileFault → String
  | notFound => "No such file or directory (os error 2)"
  | notDirectory => "Not a directory (os error 20)"
  | isDirectory => "Is a directory (os error 21)"
  | notText => "stream did not contain valid UTF-8"

/-- A directory tree: what paths stand for. -/
structure Volume where
  entries : List (List String × Entry)
deriving DecidableEq, Repr, Inhabited

namespace Volume

/-- The tree that has only a root. -/
def empty : Volume := ⟨[]⟩

def get? (volume : Volume) : List String → Option Entry
  | [] => some .directory
  | path => volume.entries.lookup path

/-- The tree in which a path stands for something else. -/
def insert (volume : Volume) (path : List String) (entry : Entry) : Volume :=
  ⟨(path, entry) :: volume.entries.filter fun other => other.1 != path⟩

theorem get?_insert_self (volume : Volume) (place : List String) (entry : Entry)
    (below : place ≠ []) : (volume.insert place entry).get? place = some entry := by
  cases place with
  | nil => exact absurd rfl below
  | cons => simp [get?, insert]

/-- Inserting changes nothing elsewhere. -/
theorem get?_insert_of_ne (volume : Volume) {place other : List String} (entry : Entry)
    (different : other ≠ place) :
    (volume.insert place entry).get? other = volume.get? other := by
  cases other with
  | nil => rfl
  | cons component rest =>
      have apart : ((component :: rest) == place) = false := by simpa using different
      simp only [get?, insert, List.lookup_cons, apart]
      induction volume.entries with
      | nil => rfl
      | cons head tail ih =>
          obtain ⟨path, found⟩ := head
          by_cases same : path = place
          · subst same
            simpa [List.lookup_cons, apart] using ih
          · rw [List.filter_cons_of_pos (by simpa using same)]
            simp only [List.lookup_cons, ih]

/-- The tree with a directory and the directories above it. -/
def addDirectory (volume : Volume) (path : List String) : Volume :=
  (Path.ancestors path).foldl (fun volume place =>
    if (volume.get? place).isSome then volume else volume.insert place .directory) volume

/-- The tree with a file and the directories above it. -/
def addFile (volume : Volume) (path : List String) (content : Content) : Volume :=
  (volume.addDirectory path.dropLast).insert path (.file content)

/-- Follows components from a directory: a point stays, two points go up, a name goes down. Only a
directory can be left. -/
def walk (volume : Volume) (here : List String) : List String → Except FileFault (List String)
  | [] => .ok here
  | component :: rest =>
      match volume.get? here with
      | none => .error .notFound
      | some (.file _) => .error .notDirectory
      | some .directory =>
          volume.walk
            (if component = "." then here
              else if component = ".." then here.dropLast
              else here ++ [component])
            rest

def find (volume : Volume) (path : String) : Except FileFault Entry :=
  match volume.walk [] (Path.components path) with
  | .error fault => .error fault
  | .ok place =>
      match volume.get? place with
      | none => .error .notFound
      | some entry => .ok entry

def isFile (volume : Volume) (path : String) : Bool :=
  match volume.find path with
  | .ok (.file _) => true
  | _ => false

def exists? (volume : Volume) (path : String) : Bool :=
  (volume.find path).isOk

def read (volume : Volume) (path : String) : Except FileFault String :=
  match volume.find path with
  | .error fault => .error fault
  | .ok .directory => .error .isDirectory
  | .ok (.file (.text text)) => .ok text
  | .ok (.file (.malformed _)) => .error .notText

/-- Writes a text to a file in a directory that exists; a file that is there is replaced. -/
def write (volume : Volume) (directory : List String) (name : String) (text : String) :
    Except FileFault Volume :=
  match volume.get? directory with
  | none => .error .notFound
  | some (.file _) => .error .notDirectory
  | some .directory =>
      match volume.get? (directory ++ [name]) with
      | some .directory => .error .isDirectory
      | _ => .ok (volume.insert (directory ++ [name]) (.file (.text text)))

end Volume

end SearchQuery
