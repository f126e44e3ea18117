import SearchQuery.Files.Path
set_option autoImplicit false

/-!
# Normal paths

A path is normal if each of its components is a name, that is, leads one directory down. The text of
a normal path can be taken apart again, so two normal paths with the same text are the same, and
what is left of the text without the last component is the text of the directory.
-/

namespace SearchQuery.Path

structure IsName (component : String) : Prop where
  filled : component ≠ ""
  noPoint : component ≠ "."
  noPoints : component ≠ ".."
  noSlash : '/' ∉ component.toList

instance (component : String) : Decidable (IsName component) :=
  decidable_of_iff
    (component ≠ "" ∧ component ≠ "." ∧ component ≠ ".." ∧ '/' ∉ component.toList)
    ⟨fun ⟨filled, noPoint, noPoints, noSlash⟩ => ⟨filled, noPoint, noPoints, noSlash⟩,
      fun ⟨filled, noPoint, noPoints, noSlash⟩ => ⟨filled, noPoint, noPoints, noSlash⟩⟩

def Normal (components : List String) : Prop :=
  ∀ component ∈ components, IsName component

instance (components : List String) : Decidable (Normal components) :=
  inferInstanceAs (Decidable (∀ component ∈ components, IsName component))

theorem Normal.of_append {front rest : List String} (normal : Normal (front ++ rest)) :
    Normal front ∧ Normal rest := by
  constructor
  · intro component member
    exact normal component (List.mem_append_left rest member)
  · intro component member
    exact normal component (List.mem_append_right front member)

theorem Normal.concat {front : List String} {component : String} (normal : Normal front)
    (named : IsName component) : Normal (front ++ [component]) := by
  intro other member
  rcases List.mem_append.mp member with inside | last
  · exact normal other inside
  · rw [List.mem_singleton.mp last]
    exact named

theorem IsName.isEmptyPart_eq_false {component : String} (named : IsName component) :
    isEmptyPart component.toList = false := by
  have filled : component.toList ≠ [] := by
    intro empty
    exact named.filled (String.toList_inj.mp empty)
  have noPoint : component.toList ≠ ['.'] := by
    intro point
    exact named.noPoint (String.toList_inj.mp point)
  simp [isEmptyPart, filled, noPoint]

/-!
## Parts
-/

theorem split_append_slash {part : List Char} (noSlash : '/' ∉ part) (rest : List Char) :
    split (part ++ '/' :: rest) = part :: split rest := by
  induction part with
  | nil => simp [split]
  | cons character part ih =>
      obtain ⟨other, absent⟩ : '/' ≠ character ∧ '/' ∉ part := by simpa using noSlash
      rw [List.cons_append, split, if_neg (Ne.symm other), ih absent]

theorem split_of_noSlash {part : List Char} (noSlash : '/' ∉ part) : split part = [part] := by
  induction part with
  | nil => rfl
  | cons character part ih =>
      obtain ⟨other, absent⟩ : '/' ≠ character ∧ '/' ∉ part := by simpa using noSlash
      rw [split, if_neg (Ne.symm other), ih absent]

theorem join_cons_cons (part next : List Char) (parts : List (List Char)) :
    join (part :: next :: parts) = part ++ '/' :: join (next :: parts) := rfl

/-- Parts without slashes are found again between the slashes that join them. -/
theorem split_join {parts : List (List Char)} (filled : parts ≠ [])
    (noSlash : ∀ part ∈ parts, '/' ∉ part) : split (join parts) = parts := by
  induction parts with
  | nil => exact absurd rfl filled
  | cons part parts ih =>
      obtain ⟨absent, others⟩ := List.forall_mem_cons.mp noSlash
      cases parts with
      | nil => exact split_of_noSlash absent
      | cons next parts => rw [join_cons_cons, split_append_slash absent, ih (by simp) others]

theorem trimParts_concat {parts : List (List Char)} {last : List Char}
    (named : isEmptyPart last = false) : trimParts (parts ++ [last]) = parts ++ [last] := by
  simp [trimParts, named]

theorem Normal.trimParts_eq {components : List String} (normal : Normal components) :
    trimParts (components.map String.toList) = components.map String.toList := by
  rcases List.eq_nil_or_concat components with rfl | ⟨front, last, rfl⟩
  · rfl
  · rw [List.concat_eq_append] at normal ⊢
    rw [List.map_append, List.map_singleton]
    have named := normal last (by simp)
    exact trimParts_concat named.isEmptyPart_eq_false

/-!
## The text of a path
-/

theorem join_eq_intercalate (parts : List (List Char)) : join parts = ['/'].intercalate parts := by
  induction parts with
  | nil => rfl
  | cons part parts ih =>
      cases parts with
      | nil => simp [join, List.intercalate]
      | cons next parts =>
          rw [join_cons_cons, ih]
          simp [List.intercalate]

theorem toList_ofComponents (components : List String) :
    (ofComponents components).toList = '/' :: join (components.map String.toList) := by
  rw [ofComponents, String.toList_append, String.toList_intercalate, join_eq_intercalate]
  rfl

theorem Normal.split_join_eq {components : List String} (normal : Normal components)
    (filled : components ≠ []) :
    split (join (components.map String.toList)) = components.map String.toList := by
  apply split_join
  · simpa using filled
  · intro part member
    obtain ⟨component, inside, rfl⟩ := List.mem_map.mp member
    exact (normal component inside).noSlash

/-- The components of a normal path are those it was made of. -/
theorem Normal.components_ofComponents {components : List String} (normal : Normal components)
    (filled : components ≠ []) : Path.components (ofComponents components) = components := by
  have kept : (components.map String.toList).filter (fun part => !isEmptyPart part) =
      components.map String.toList := by
    rw [List.filter_eq_self]
    intro part member
    obtain ⟨component, inside, rfl⟩ := List.mem_map.mp member
    simp [(normal component inside).isEmptyPart_eq_false]
  have last : ([] :: components.map String.toList).getLast?.map isEmptyPart = some false := by
    obtain ⟨front, last, rfl⟩ := (List.eq_nil_or_concat components).resolve_left filled
    have named := (normal last (by simp)).isEmptyPart_eq_false
    simp [List.getLast?_cons, named]
  rw [Path.components, toList_ofComponents, split, if_pos rfl, normal.split_join_eq filled]
  simp only [last, Option.getD_some, Bool.false_eq_true, if_false]
  rw [List.filter_cons_of_neg (by simp [isEmptyPart]), kept, List.map_map]
  simp [Function.comp_def]

/-- Normal paths that are written alike are the same. -/
theorem Normal.eq_of_ofComponents_eq {first second : List String} (firstNormal : Normal first)
    (secondNormal : Normal second) (same : ofComponents first = ofComponents second) :
    first = second := by
  have root : Path.components (ofComponents []) = ["."] := by decide
  have apart {components : List String} (normal : Normal components) : components ≠ ["."] := by
    rintro rfl
    exact (normal "." List.mem_cons_self).noPoint rfl
  by_cases firstRoot : first = []
  · subst firstRoot
    by_cases secondRoot : second = []
    · exact secondRoot.symm
    · rw [same, secondNormal.components_ofComponents secondRoot] at root
      exact absurd root (apart secondNormal)
  · by_cases secondRoot : second = []
    · subst secondRoot
      rw [← same, firstNormal.components_ofComponents firstRoot] at root
      exact absurd root (apart firstNormal)
    · rw [← firstNormal.components_ofComponents firstRoot, same,
        secondNormal.components_ofComponents secondRoot]

/-- The parent of a normal path is the directory that its last component is in. -/
theorem Normal.parent?_ofComponents {directory : List String} {name : String}
    (normal : Normal (directory ++ [name])) :
    parent? (ofComponents (directory ++ [name])) = some (ofComponents directory) := by
  obtain ⟨inside, _⟩ := normal.of_append
  have text : '/' :: join (directory.map String.toList) = (ofComponents directory).toList :=
    (toList_ofComponents directory).symm
  rw [parent?, toList_ofComponents]
  simp only [lead, List.length_singleton, List.drop_one, List.tail_cons]
  rw [normal.split_join_eq (by simp), normal.trimParts_eq, List.map_append, List.reverse_append]
  simp only [List.map_singleton, List.reverse_singleton, List.singleton_append]
  rw [List.reverse_reverse, inside.trimParts_eq, text, String.ofList_toList]

/-!
## Directories on the way to the root
-/

@[simp] theorem ancestors_nil : ancestors [] = [[]] := rfl

@[simp] theorem ancestors_cons (component : String) (rest : List String) :
    ancestors (component :: rest) = (ancestors rest).map (component :: ·) ++ [[]] := rfl

theorem mem_ancestors {directory above : List String} :
    above ∈ ancestors directory ↔ above <+: directory := by
  induction directory generalizing above with
  | nil => simp
  | cons component rest ih =>
      cases above with
      | nil => simp
      | cons first others =>
          simp only [ancestors_cons, List.mem_append, List.mem_map, ih, List.cons.injEq,
            List.mem_singleton, reduceCtorEq, or_false, List.cons_prefix_cons]
          constructor
          · rintro ⟨_, inside, rfl, rfl⟩
            exact ⟨rfl, inside⟩
          · rintro ⟨rfl, inside⟩
            exact ⟨others, inside, rfl, rfl⟩

/-- The nearest directory comes first. -/
theorem ancestors_pairwise (directory : List String) :
    (ancestors directory).Pairwise fun nearer farther => farther.length < nearer.length := by
  induction directory with
  | nil => simp
  | cons component rest ih =>
      rw [ancestors_cons, List.pairwise_append]
      refine ⟨?_, List.pairwise_singleton _ _, ?_⟩
      · rw [List.pairwise_map]
        exact ih.imp fun shorter => Nat.succ_lt_succ shorter
      · intro nearer member root isRoot
        obtain ⟨above, _, rfl⟩ := List.mem_map.mp member
        rw [List.mem_singleton.mp isRoot]
        exact Nat.zero_lt_succ _

end SearchQuery.Path
