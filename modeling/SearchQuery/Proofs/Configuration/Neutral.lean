import SearchQuery.Proofs.Configuration.Precedence
set_option autoImplicit false

/-!
# Files that say nothing

A new settings file that says nothing changes no settings, wherever it is: it is found besides the
files that counted before, it does not end the walk, it can be used, and it defines nothing.
-/

namespace SearchQuery

/-!
## A tree with one more file
-/

namespace Volume

section

variable {volume : Volume} {place : List String} (content : Content)

/-- A way through a place that was empty ends there, with or without the file. -/
theorem walk_insert_file (empty : volume.get? place = none) (here below : List String) :
    (volume.insert place (.file content)).walk here below = volume.walk here below ∨
      volume.walk here below = .error .notFound ∧
        (volume.insert place (.file content)).walk here below = .error .notDirectory := by
  have nonroot : place ≠ [] := by
    rintro rfl
    cases empty
  induction below generalizing here with
  | nil => exact .inl rfl
  | cons component below ih =>
      rw [walk, walk]
      by_cases same : here = place
      · subst same
        rw [get?_insert_self volume here _ nonroot, empty]
        exact .inr ⟨rfl, rfl⟩
      · rw [get?_insert_of_ne volume _ same]
        cases volume.get? here with
        | none => exact .inl rfl
        | some entry =>
            cases entry with
            | file => exact .inl rfl
            | directory => exact ih _

theorem find_insert_file (empty : volume.get? place = none) (path : String) :
    (volume.insert place (.file content)).find path = volume.find path ∨
      volume.find path = .error .notFound ∧
        ((volume.insert place (.file content)).find path = .error .notDirectory ∨
          (volume.insert place (.file content)).find path = .ok (.file content)) := by
  have nonroot : place ≠ [] := by
    rintro rfl
    cases empty
  rw [find, find]
  rcases walk_insert_file content empty [] (Path.components path) with same | ⟨lost, stopped⟩
  · rw [same]
    cases volume.walk [] (Path.components path) with
    | error fault => exact .inl rfl
    | ok reached =>
        by_cases new : reached = place
        · subst new
          simp [empty, get?_insert_self volume reached _ nonroot]
        · simp [get?_insert_of_ne volume _ new]
  · rw [lost, stopped]
    exact .inr ⟨rfl, .inl rfl⟩

end

end Volume

namespace Configuration

/-- The second tree has the files of the first, and besides them only files that say nothing. -/
structure Padded (before after : Volume) : Prop where
  kept : ∀ path, before.isFile path = true →
    after.isFile path = true ∧ readFile after path = readFile before path
  added : ∀ path, before.isFile path = false → after.isFile path = true →
    readFile after path = .ok {}

theorem padded_insert {volume : Volume} {place : List String} {text : String}
    (empty : volume.get? place = none) (silent : SettingsFile.parse text = .ok {}) :
    Padded volume (volume.insert place (.file (.text text))) := by
  constructor
  · intro path isFile
    rcases Volume.find_insert_file (.text text) empty path with same | ⟨lost, _⟩
    · rw [readFile, readFile, Volume.read, Volume.read, Volume.isFile, same]
      exact ⟨isFile, rfl⟩
    · rw [Volume.isFile, lost] at isFile
      cases isFile
  · intro path noFile isFile
    rcases Volume.find_insert_file (.text text) empty path with same | ⟨_, stopped | found⟩
    · rw [Volume.isFile, same] at isFile
      rw [Volume.isFile, isFile] at noFile
      cases noFile
    · rw [Volume.isFile, stopped] at isFile
      cases isFile
    · rw [readFile, Volume.read, found]
      simp only [parseFile, silent]

/-!
## The files that count
-/

section

variable {before after : Volume}

theorem Padded.climb_eq (padded : Padded before after) (directories : List (List String)) :
    climb before directories =
      ((climb after directories).1.filter before.isFile, (climb after directories).2) := by
  induction directories with
  | nil => rfl
  | cons directory above ih =>
      rw [climb, climb]
      cases was : before.isFile (fileIn directory) with
      | true =>
          obtain ⟨isFile, same⟩ := padded.kept _ was
          have sameRoot : isRootFile after (fileIn directory) =
              isRootFile before (fileIn directory) := by
            rw [isRootFile, isRootFile, same]
          simp only [isFile, sameRoot, if_true]
          cases isRootFile before (fileIn directory) with
          | true => simp [was]
          | false => simp [was, ih]
      | false =>
          cases isFile : after.isFile (fileIn directory) with
          | true =>
              have noRoot : isRootFile after (fileIn directory) = false := by
                rw [isRootFile, padded.added _ was isFile]
                rfl
              simp [was, noRoot, ih]
          | false => simpa using ih

theorem Padded.discover_eq (padded : Padded before after) (home directory : List String) :
    discover before home directory = (discover after home directory).filter before.isFile := by
  simp only [discover, padded.climb_eq]
  cases was : before.isFile (fileIn home) with
  | true =>
      have listed : ((climb after (Path.ancestors directory)).1.filter before.isFile).contains
          (fileIn home) = (climb after (Path.ancestors directory)).1.contains (fileIn home) := by
        rw [Bool.eq_iff_iff, List.contains_iff_mem, List.contains_iff_mem, List.mem_filter, was]
        exact ⟨And.left, fun member => ⟨member, rfl⟩⟩
      rw [listed, (padded.kept _ was).1]
      split
      · rw [List.filter_append, List.filter_cons_of_pos was, List.filter_nil]
      · rfl
  | false =>
      simp only [Bool.and_false, Bool.false_and, Bool.false_eq_true, if_false]
      split
      · rw [List.filter_append, List.filter_cons_of_neg (by simp [was]), List.filter_nil,
          List.append_nil]
      · rfl

theorem isFile_of_mem_climb {volume : Volume} {directories : List (List String)} {path : String}
    (member : path ∈ (climb volume directories).1) : volume.isFile path = true := by
  induction directories with
  | nil => cases member
  | cons directory above ih =>
      rw [climb] at member
      split at member
      · rename_i isFile
        split at member
        · rwa [List.mem_singleton.mp member]
        · rcases List.mem_cons.mp member with rfl | behind
          · exact isFile
          · exact ih behind
      · exact ih member

theorem isFile_of_mem_discover {volume : Volume} {home directory : List String} {path : String}
    (member : path ∈ discover volume home directory) : volume.isFile path = true := by
  simp only [discover] at member
  split at member
  · rename_i added
    rcases List.mem_append.mp member with met | last
    · exact isFile_of_mem_climb met
    · simp only [Bool.and_eq_true] at added
      rw [List.mem_singleton.mp last]
      exact added.1.2
  · exact isFile_of_mem_climb member

/-!
## What they come to
-/

/-- The files that define something. -/
def telling (named : List (String × SettingsFile)) : List SettingsFile :=
  (named.map Prod.snd).filter fun file => file != {}

theorem findSome?_telling {α : Type} {value? : SettingsFile → Option α} (nothing : value? {} = none)
    (named : List (String × SettingsFile)) :
    (telling named).findSome? value? = named.findSome? fun file => value? file.2 := by
  induction named with
  | nil => rfl
  | cons first rest ih =>
      rw [telling, List.map_cons, List.findSome?_cons]
      by_cases silent : first.2 = {}
      · rw [List.filter_cons_of_neg (by simp [silent]), silent, nothing]
        exact ih
      · rw [List.filter_cons_of_pos (by simpa using silent), List.findSome?_cons]
        cases value? first.2 with
        | none => exact ih
        | some value => rfl

theorem settings_merge_eq_of_telling {first second : List (String × SettingsFile)}
    (same : telling first = telling second) : (merge first).settings = (merge second).settings := by
  rw [merge, merge, ← findSome?_telling rfl, ← findSome?_telling rfl, ← findSome?_telling rfl,
    ← findSome?_telling rfl, same]

/-- The files of the first tree among some of the second are used alike. -/
theorem Padded.telling_eq (padded : Padded before after) {paths : List String}
    (files : ∀ path ∈ paths, after.isFile path = true) :
    ((paths.filter before.isFile).mapM (readNamed before)).map telling =
      (paths.mapM (readNamed after)).map telling := by
  induction paths with
  | nil => rfl
  | cons path paths ih =>
      obtain ⟨isFile, behind⟩ := List.forall_mem_cons.mp files
      specialize ih behind
      cases was : before.isFile path with
      | true =>
          rw [List.filter_cons_of_pos was, List.mapM_cons, List.mapM_cons, readNamed, readNamed,
            (padded.kept path was).2]
          cases readFile before path with
          | error error => rfl
          | ok file =>
              revert ih
              cases (paths.filter before.isFile).mapM (readNamed before) <;>
                cases paths.mapM (readNamed after) <;>
                  simp +contextual [telling, Except.map, Bind.bind, Except.bind, pure, Except.pure,
                    List.filter_cons]
      | false =>
          rw [List.filter_cons_of_neg (by simp [was]), ih, List.mapM_cons, readNamed,
            padded.added path was isFile]
          cases paths.mapM (readNamed after) <;> rfl

theorem Padded.settings_load_eq (padded : Padded before after) (home directory : List String) :
    (load after home directory).map settings = (load before home directory).map settings := by
  have files : ∀ path ∈ discover after home directory, after.isFile path = true :=
    fun _ => isFile_of_mem_discover
  have same := padded.telling_eq files
  rw [load, load, padded.discover_eq, loadFiles_eq_map, loadFiles_eq_map]
  revert same
  cases ((discover after home directory).filter before.isFile).mapM (readNamed before) <;>
    cases (discover after home directory).mapM (readNamed after) <;>
      simp only [Except.map, Except.error.injEq, Except.ok.injEq, reduceCtorEq, false_implies]
  · exact Eq.symm
  · exact fun same => (settings_merge_eq_of_telling same).symm

end

end Configuration

end SearchQuery
