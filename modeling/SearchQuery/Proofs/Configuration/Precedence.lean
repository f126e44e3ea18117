import SearchQuery.Configuration.Load
import SearchQuery.Proofs.Files.Paths
set_option autoImplicit false

/-!
# Nearest wins

Which settings files count for a directory, and what they come to, said without a walk and without
merging. The files of the directory and of those above it count from the nearest on, up to the
first that says it is the root. The file of the home directory comes after them if there is no such
file. The first file that cannot be used decides the error; otherwise each setting has the value of
the first file that defines it.
-/

namespace SearchQuery.Configuration

/-- The file of a directory ends the walk: it can be used, and it says that it is the root. -/
def EndsWalk (volume : Volume) (directory : List String) : Prop :=
  volume.isFile (fileIn directory) = true ∧
    ∃ file, readFile volume (fileIn directory) = .ok file ∧ file.root = some true

/-- The walk up from a directory meets the file of a directory above it. -/
structure Met (volume : Volume) (directory above : List String) : Prop where
  onTheWay : above <+: directory
  isFile : volume.isFile (fileIn above) = true
  notEnded : ∀ nearer, nearer <+: directory → above.length < nearer.length →
    ¬ EndsWalk volume nearer

/-- The file of the home directory counts besides those that the walk meets. -/
structure HomeCounts (volume : Volume) (home directory : List String) : Prop where
  isFile : volume.isFile (fileIn home) = true
  notEnded : ∀ above, above <+: directory → ¬ EndsWalk volume above
  unmet : ¬ Met volume directory home

/-- The directories whose files the walk meets, the nearest first. -/
structure Walked (volume : Volume) (directory : List String) (met : List (List String)) : Prop where
  mem_iff : ∀ above, above ∈ met ↔ Met volume directory above
  nearestFirst : met.Pairwise fun nearer farther => farther.length < nearer.length

/-- The directories whose files count, in the order in which they do. -/
inductive Counting (volume : Volume) (home directory : List String) : List (List String) → Prop where
  | walked {met : List (List String)} :
      Walked volume directory met → ¬ HomeCounts volume home directory →
      Counting volume home directory met
  | homeLast {met : List (List String)} :
      Walked volume directory met → HomeCounts volume home directory →
      Counting volume home directory (met ++ [home])

/-- The error of the first file that cannot be used. -/
inductive FirstUnusable (volume : Volume) : List String → ConfigurationError → Prop where
  | here {path : String} {paths : List String} {error : ConfigurationError} :
      readFile volume path = .error error → FirstUnusable volume (path :: paths) error
  | later {path : String} {paths : List String} {file : SettingsFile}
      {error : ConfigurationError} :
      readFile volume path = .ok file → FirstUnusable volume paths error →
      FirstUnusable volume (path :: paths) error

/-- The value of the first file that defines one. -/
inductive FirstDefined {α : Type} (value? : SettingsFile → Option α) (standard : α) :
    List SettingsFile → α → Prop where
  | nowhere : FirstDefined value? standard [] standard
  | here {file : SettingsFile} {files : List SettingsFile} {value : α} :
      value? file = some value → FirstDefined value? standard (file :: files) value
  | later {file : SettingsFile} {files : List SettingsFile} {value : α} :
      value? file = none → FirstDefined value? standard files value →
      FirstDefined value? standard (file :: files) value

/-!
## The walk
-/

section

variable {volume : Volume} {home directory : List String}

theorem isRootFile_iff {path : String} :
    isRootFile volume path = true ↔
      ∃ file, readFile volume path = .ok file ∧ file.root = some true := by
  rw [isRootFile]
  cases readFile volume path with
  | ok file => simp
  | error error => simp

/-- What climbing through directories meets, the nearest of which comes first. -/
theorem climb_met (volume : Volume) {directories : List (List String)}
    (nearestFirst : directories.Pairwise fun nearer farther => farther.length < nearer.length) :
    ∃ met : List (List String), (climb volume directories).1 = met.map fileIn ∧ met.Sublist directories ∧
      ((climb volume directories).2 = true ↔ ∃ above ∈ directories, EndsWalk volume above) ∧
      ∀ above, above ∈ met ↔ above ∈ directories ∧ volume.isFile (fileIn above) = true ∧
        ∀ nearer ∈ directories, above.length < nearer.length → ¬ EndsWalk volume nearer := by
  induction directories with
  | nil => exact ⟨[], rfl, .slnil, by simp [climb], by simp⟩
  | cons nearest farther ih =>
      obtain ⟨shorter, ordered⟩ := List.pairwise_cons.mp nearestFirst
      obtain ⟨met, paths, inside, stopped, member⟩ := ih ordered
      have notNearer : ∀ nearer ∈ nearest :: farther, ¬ nearest.length < nearer.length := by
        intro nearer found
        rcases List.mem_cons.mp found with rfl | found
        · exact Nat.lt_irrefl _
        · exact Nat.lt_asymm (shorter nearer found)
      -- Unless the nearest file ends the walk, it changes nothing for those that are farther.
      have memberBehind (open' : ¬ EndsWalk volume nearest) (above : List String) :
          above ∈ met ↔ above ∈ farther ∧ volume.isFile (fileIn above) = true ∧
            ∀ nearer ∈ nearest :: farther, above.length < nearer.length →
              ¬ EndsWalk volume nearer := by
        rw [member]
        simp only [List.forall_mem_cons, open', not_false_eq_true, implies_true, true_and]
      have apart : ∀ above ∈ farther, above ≠ nearest := by
        rintro above found rfl
        exact Nat.lt_irrefl _ (shorter above found)
      rw [climb]
      by_cases isFile : volume.isFile (fileIn nearest) = true
      · by_cases ends : EndsWalk volume nearest
        · have isRoot := isRootFile_iff.mpr ends.2
          simp only [isFile, isRoot, if_true]
          refine ⟨[nearest], rfl, by simp, by simp [ends], fun above => ?_⟩
          rw [List.mem_singleton]
          constructor
          · rintro rfl
            exact ⟨List.mem_cons_self, isFile, fun nearer found closer =>
              absurd closer (notNearer nearer found)⟩
          · rintro ⟨found, _, notEnded⟩
            rcases List.mem_cons.mp found with rfl | found
            · rfl
            · exact absurd ends (notEnded nearest List.mem_cons_self (shorter above found))
        · have isRoot : isRootFile volume (fileIn nearest) ≠ true := by
            intro isRoot
            exact ends ⟨isFile, isRootFile_iff.mp isRoot⟩
          simp only [isFile, isRoot, if_true]
          refine ⟨nearest :: met, by rw [paths]; rfl, inside.cons_cons nearest, ?_, fun above => ?_⟩
          · simpa [ends] using stopped
          · rw [List.mem_cons, memberBehind ends, List.mem_cons]
            constructor
            · rintro (rfl | ⟨found, isFile, notEnded⟩)
              · exact ⟨.inl rfl, isFile, fun nearer found closer =>
                  absurd closer (notNearer nearer found)⟩
              · exact ⟨.inr found, isFile, notEnded⟩
            · rintro ⟨rfl | found, isFile, notEnded⟩
              · exact .inl rfl
              · exact .inr ⟨found, isFile, notEnded⟩
      · have open' : ¬ EndsWalk volume nearest := fun ends => isFile ends.1
        simp only [isFile]
        refine ⟨met, paths, inside.cons nearest, ?_, fun above => ?_⟩
        · simpa [open'] using stopped
        · rw [memberBehind open', List.mem_cons]
          constructor
          · rintro ⟨found, isFile, notEnded⟩
            exact ⟨.inr found, isFile, notEnded⟩
          · rintro ⟨rfl | found, isFile', notEnded⟩
            · exact absurd isFile' isFile
            · exact ⟨found, isFile', notEnded⟩

theorem isName_settingsFileName : Path.IsName settingsFileName := by decide

theorem fileIn_inj {first second : List String} (firstNormal : Path.Normal first)
    (secondNormal : Path.Normal second) (same : fileIn first = fileIn second) : first = second := by
  have joined := (firstNormal.concat isName_settingsFileName).eq_of_ofComponents_eq
    (secondNormal.concat isName_settingsFileName) same
  exact List.append_cancel_right joined

theorem normal_of_prefix (normal : Path.Normal directory) {above : List String}
    (onTheWay : above <+: directory) : Path.Normal above := by
  intro component member
  exact normal component (onTheWay.subset member)

/-- The walk and the file of the home directory, as they are found. -/
theorem exists_counting (homeNormal : Path.Normal home) (normal : Path.Normal directory) :
    ∃ counting, Counting volume home directory counting ∧
      discover volume home directory = counting.map fileIn ∧
      ∀ above ∈ counting, Path.Normal above := by
  obtain ⟨met, paths, inside, stopped, member⟩ :=
    climb_met volume (Path.ancestors_pairwise directory)
  have walked : Walked volume directory met := by
    constructor
    · intro above
      rw [member, Path.mem_ancestors]
      constructor
      · rintro ⟨onTheWay, isFile, notEnded⟩
        exact ⟨onTheWay, isFile, fun nearer way => notEnded nearer (Path.mem_ancestors.mpr way)⟩
      · rintro ⟨onTheWay, isFile, notEnded⟩
        exact ⟨onTheWay, isFile, fun nearer way => notEnded nearer (Path.mem_ancestors.mp way)⟩
    · exact (Path.ancestors_pairwise directory).sublist inside
  have metNormal : ∀ above ∈ met, Path.Normal above := by
    intro above found
    exact normal_of_prefix normal ((walked.mem_iff above).mp found).onTheWay
  have homeMet : fileIn home ∈ met.map fileIn ↔ Met volume directory home := by
    rw [← walked.mem_iff, List.mem_map]
    constructor
    · rintro ⟨above, found, same⟩
      rwa [← fileIn_inj (metNormal above found) homeNormal same]
    · intro found
      exact ⟨home, found, rfl⟩
  have condition : (!(climb volume (Path.ancestors directory)).2 &&
      volume.isFile (fileIn home) && !(met.map fileIn).contains (fileIn home)) = true ↔
      HomeCounts volume home directory := by
    simp only [Bool.and_eq_true, Bool.not_eq_true', ← Bool.not_eq_true, stopped,
      List.contains_iff_mem, homeMet, Path.mem_ancestors]
    constructor
    · rintro ⟨⟨notEnded, isFile⟩, unmet⟩
      exact ⟨isFile, fun above way ends => notEnded ⟨above, way, ends⟩, unmet⟩
    · rintro ⟨isFile, notEnded, unmet⟩
      exact ⟨⟨fun ⟨above, way, ends⟩ => notEnded above way ends, isFile⟩, unmet⟩
  by_cases counts : HomeCounts volume home directory
  · refine ⟨met ++ [home], .homeLast walked counts, ?_, ?_⟩
    · simp only [discover, paths]
      rw [if_pos (condition.mpr counts), List.map_append, List.map_singleton]
    · intro above found
      rcases List.mem_append.mp found with found | last
      · exact metNormal above found
      · rwa [List.mem_singleton.mp last]
  · refine ⟨met, .walked walked counts, ?_, metNormal⟩
    simp only [discover, paths]
    rw [if_neg fun counted => counts (condition.mp counted)]

/-!
## What files come to
-/

theorem firstDefined_iff {α : Type} {value? : SettingsFile → Option α} {standard value : α}
    {files : List SettingsFile} :
    FirstDefined value? standard files value ↔ (files.findSome? value?).getD standard = value := by
  constructor
  · intro first
    induction first with
    | nowhere => rfl
    | here defined => simp [defined]
    | later undefined _ ih => simpa [undefined] using ih
  · intro first
    induction files with
    | nil =>
        cases first
        exact .nowhere
    | cons file files ih =>
        cases defined : value? file with
        | none => exact .later defined (ih (by simpa [defined] using first))
        | some found =>
            obtain rfl : found = value := by simpa [defined] using first
            exact .here defined

/-- A file together with where it is. -/
def readNamed (volume : Volume) (path : String) :
    Except ConfigurationError (String × SettingsFile) := do
  let file ← readFile volume path
  return (path, file)

theorem mapM_readNamed_eq_error_iff {paths : List String} {error : ConfigurationError} :
    paths.mapM (readNamed volume) = .error error ↔ FirstUnusable volume paths error := by
  constructor
  · intro failed
    induction paths with
    | nil => cases failed
    | cons path paths ih =>
        rw [List.mapM_cons, readNamed] at failed
        cases used : readFile volume path with
        | error fault =>
            rw [used] at failed
            cases failed
            exact .here used
        | ok file =>
            cases others : paths.mapM (readNamed volume) with
            | error fault =>
                rw [used, others] at failed
                cases failed
                exact .later used (ih others)
            | ok files =>
                rw [used, others] at failed
                cases failed
  · intro first
    induction first with
    | here unusable =>
        rw [List.mapM_cons, readNamed, unusable]
        rfl
    | later used _ ih =>
        rw [List.mapM_cons, readNamed, used, ih]
        rfl

theorem mapM_readNamed_eq_ok_iff {paths : List String} {named : List (String × SettingsFile)} :
    paths.mapM (readNamed volume) = .ok named ↔
      ∃ files, paths.map (readFile volume) = files.map .ok ∧ named = paths.zip files := by
  constructor
  · intro read
    induction paths generalizing named with
    | nil =>
        cases read
        exact ⟨[], rfl, rfl⟩
    | cons path paths ih =>
        rw [List.mapM_cons, readNamed] at read
        cases used : readFile volume path with
        | error fault =>
            rw [used] at read
            cases read
        | ok file =>
            cases others : paths.mapM (readNamed volume) with
            | error fault =>
                rw [used, others] at read
                cases read
            | ok behind =>
                rw [used, others] at read
                cases read
                obtain ⟨files, same, rfl⟩ := ih others
                exact ⟨file :: files, by simp [used, same], rfl⟩
  · rintro ⟨files, same, rfl⟩
    induction paths generalizing files with
    | nil => rfl
    | cons path paths ih =>
        cases files with
        | nil => cases same
        | cons file files =>
            obtain ⟨used, others⟩ := List.cons.inj same
            rw [List.mapM_cons, readNamed, used, ih files others]
            rfl

theorem loadFiles_eq_map (volume : Volume) (paths : List String) :
    loadFiles volume paths = (paths.mapM (readNamed volume)).map merge := by
  change (paths.mapM (readNamed volume) >>= fun named => pure (merge named)) = _
  cases paths.mapM (readNamed volume) with
  | error error => rfl
  | ok named => rfl

theorem loadFiles_eq_error_iff {paths : List String} {error : ConfigurationError} :
    loadFiles volume paths = .error error ↔ FirstUnusable volume paths error := by
  rw [← mapM_readNamed_eq_error_iff, loadFiles_eq_map]
  cases paths.mapM (readNamed volume) <;> simp [Except.map]

theorem loadFiles_eq_ok_iff {paths : List String} {configuration : Configuration} :
    loadFiles volume paths = .ok configuration ↔
      ∃ files, paths.map (readFile volume) = files.map .ok ∧
        configuration = merge (paths.zip files) := by
  have split : loadFiles volume paths = .ok configuration ↔
      ∃ named, paths.mapM (readNamed volume) = .ok named ∧ configuration = merge named := by
    rw [loadFiles_eq_map]
    cases paths.mapM (readNamed volume) <;> simp [Except.map, eq_comm]
  rw [split]
  constructor
  · rintro ⟨named, read, rfl⟩
    obtain ⟨files, same, rfl⟩ := mapM_readNamed_eq_ok_iff.mp read
    exact ⟨files, same, rfl⟩
  · rintro ⟨files, same, rfl⟩
    exact ⟨_, mapM_readNamed_eq_ok_iff.mpr ⟨files, same, rfl⟩, rfl⟩

/-- What usable files come to, each setting on its own. -/
theorem eq_merge_iff {paths : List String} {files : List SettingsFile}
    (sameLength : paths.length = files.length) {configuration : Configuration} :
    configuration = merge (paths.zip files) ↔
      FirstDefined SettingsFile.mode? Settings.standard.mode files configuration.settings.mode ∧
      FirstDefined SettingsFile.fieldConjunction? Settings.standard.fieldConjunction files
        configuration.settings.fieldConjunction ∧
      configuration.sources = paths ∧ configuration.root = paths.head?.bind Path.parent? := by
  have first {α : Type} (value? : SettingsFile → Option α) :
      (paths.zip files).findSome? (fun named => value? named.2) = files.findSome? value? := by
    rw [← Function.comp_def value? Prod.snd, ← List.findSome?_map,
      List.map_snd_zip (Nat.le_of_eq sameLength.symm)]
  have named : (paths.zip files).map Prod.fst = paths :=
    List.map_fst_zip (Nat.le_of_eq sameLength)
  have root : (paths.zip files).head?.bind (fun named => Path.parent? named.1) =
      paths.head?.bind Path.parent? := by
    have heads := congrArg List.head? named
    rw [List.head?_map] at heads
    rw [← heads]
    cases (paths.zip files).head? <;> rfl
  obtain ⟨⟨mode, fieldConjunction⟩, rootPath, sources⟩ := configuration
  rw [firstDefined_iff, firstDefined_iff, merge, first, first, named, root]
  simp only [mk.injEq, Settings.mk.injEq]
  constructor
  · rintro ⟨⟨rfl, rfl⟩, rfl, rfl⟩
    exact ⟨rfl, rfl, rfl, rfl⟩
  · rintro ⟨rfl, rfl, rfl, rfl⟩
    exact ⟨⟨rfl, rfl⟩, rfl, rfl⟩

theorem parent?_fileIn {above : List String} (normal : Path.Normal above) :
    Path.parent? (fileIn above) = some (Path.ofComponents above) :=
  (normal.concat isName_settingsFileName).parent?_ofComponents

theorem Walked.nodup {met : List (List String)} (walked : Walked volume directory met) :
    met.Nodup := by
  refine walked.nearestFirst.imp fun {nearer farther} shorter => ?_
  rintro rfl
  exact Nat.lt_irrefl _ shorter

theorem Counting.nodup {counting : List (List String)}
    (counts : Counting volume home directory counting) : counting.Nodup := by
  cases counts with
  | walked walked _ => exact walked.nodup
  | homeLast walked homeCounts =>
      rw [List.nodup_append]
      refine ⟨walked.nodup, by simp, ?_⟩
      rintro above found last isLast rfl
      rw [List.mem_singleton.mp isLast] at found
      exact homeCounts.unmet ((walked.mem_iff home).mp found)

theorem nodup_map_fileIn {places : List (List String)} (distinct : places.Nodup)
    (normal : ∀ place ∈ places, Path.Normal place) : (places.map fileIn).Nodup := by
  rw [List.nodup_iff_pairwise_ne, List.pairwise_map]
  refine distinct.imp_of_mem fun first second apart same => ?_
  exact apart (fileIn_inj (normal _ first) (normal _ second) same)

end

/-- A home directory whose file sets both settings, with a directory below it whose file sets
one. -/
def nestedVolume : Volume :=
  (Volume.empty.addFile ["home", ".fts.toml"]
      (.text "[parser]\nmode = \"cmis\"\ndefault_field_conjunction = false")).addFile
    ["home", "work", ".fts.toml"] (.text "parser.mode = \"default-disjunction\"")

end SearchQuery.Configuration
