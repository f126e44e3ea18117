import SearchQuery.Files.Volume
import SearchQuery.Proofs.Files.Paths
set_option autoImplicit false

/-!
# Well-formed trees

In a tree, whatever exists has a name and is in a directory. So a place that stands for something is
found by its path, and something new in a directory leaves a tree.
-/

namespace SearchQuery.Volume

structure IsTree (volume : Volume) : Prop where
  inDirectory : ∀ {place : List String} {name : String} {entry : Entry},
    volume.get? (place ++ [name]) = some entry → volume.get? place = some .directory
  named : ∀ {place : List String} {name : String} {entry : Entry},
    volume.get? (place ++ [name]) = some entry → Path.IsName name

section

variable {volume : Volume}

/-- The way to a place leads through directories. -/
theorem IsTree.directory_above (tree : volume.IsTree) {above : List String} {name : String}
    {below : List String} {entry : Entry}
    (found : volume.get? (above ++ name :: below) = some entry) :
    volume.get? above = some .directory ∧ Path.IsName name := by
  induction below generalizing above name with
  | nil => exact ⟨tree.inDirectory found, tree.named found⟩
  | cons next below ih =>
      rw [List.append_cons] at found
      obtain ⟨directory, _⟩ := ih found
      exact ⟨tree.inDirectory directory, tree.named directory⟩

theorem IsTree.normal (tree : volume.IsTree) {place : List String} {entry : Entry}
    (found : volume.get? place = some entry) : Path.Normal place := by
  intro name member
  obtain ⟨above, below, rfl⟩ := List.append_of_mem member
  exact (tree.directory_above found).2

theorem IsTree.walk_eq_ok (tree : volume.IsTree) {here below : List String} {entry : Entry}
    (found : volume.get? (here ++ below) = some entry) :
    volume.walk here below = .ok (here ++ below) := by
  induction below generalizing here with
  | nil => simp [walk]
  | cons name below ih =>
      obtain ⟨directory, named⟩ := tree.directory_above found
      rw [List.append_cons] at found ⊢
      rw [walk, directory, if_neg named.noPoint, if_neg named.noPoints]
      exact ih found

/-- What stands at a place is found by its path. -/
theorem IsTree.find_ofComponents (tree : volume.IsTree) {place : List String} {entry : Entry}
    (below : place ≠ []) (found : volume.get? place = some entry) :
    volume.find (Path.ofComponents place) = .ok entry := by
  have reached : volume.walk [] place = .ok place := tree.walk_eq_ok found
  rw [find, (tree.normal found).components_ofComponents below]
  simp only [reached, found]

theorem eq_of_get?_insert_ne {place other : List String} {entry : Entry}
    (changed : (volume.insert place entry).get? other ≠ volume.get? other) : other = place := by
  by_cases same : other = place
  · exact same
  · exact absurd (volume.get?_insert_of_ne entry same) changed

theorem write_eq_ok {directory : List String} {name text : String} {written : Volume}
    (succeeded : volume.write directory name text = .ok written) :
    volume.get? directory = some .directory ∧
      volume.get? (directory ++ [name]) ≠ some .directory ∧
      written = volume.insert (directory ++ [name]) (.file (.text text)) := by
  rw [write] at succeeded
  split at succeeded
  · cases succeeded
  · cases succeeded
  · rename_i isDirectory
    split at succeeded
    · cases succeeded
    · rename_i free
      cases succeeded
      exact ⟨isDirectory, free, rfl⟩

theorem isTree_empty : empty.IsTree := by
  have nothing (place : List String) (name : String) : empty.get? (place ++ [name]) = none := by
    cases place <;> rfl
  constructor
  · intro place name entry found
    rw [nothing] at found
    cases found
  · intro place name entry found
    rw [nothing] at found
    cases found

/-- Something new in a directory leaves a tree, if no directory gives way to it. -/
theorem IsTree.insert (tree : volume.IsTree) {directory : List String} {name : String}
    (isName : Path.IsName name) (isDirectory : volume.get? directory = some .directory)
    (free : volume.get? (directory ++ [name]) ≠ some .directory) (entry : Entry) :
    (volume.insert (directory ++ [name]) entry).IsTree := by
  have otherwise {place : List String} (elsewhere : place ≠ directory ++ [name]) :=
    volume.get?_insert_of_ne entry elsewhere
  have still {place : List String} (was : volume.get? place = some .directory) :
      (volume.insert (directory ++ [name]) entry).get? place = some .directory := by
    rw [otherwise, was]
    rintro rfl
    exact free was
  constructor
  · intro place component found existing
    by_cases new : place ++ [component] = directory ++ [name]
    · obtain ⟨rfl, _⟩ := List.append_inj' new rfl
      exact still isDirectory
    · rw [otherwise new] at existing
      exact still (tree.inDirectory existing)
  · intro place component found existing
    by_cases new : place ++ [component] = directory ++ [name]
    · obtain ⟨_, same⟩ := List.append_inj' new rfl
      cases same
      exact isName
    · rw [otherwise new] at existing
      exact tree.named existing

end

end SearchQuery.Volume
