import SearchQuery.Command.Run
import SearchQuery.Proofs.Configuration.Neutral
import SearchQuery.Proofs.Files.Trees
import SearchQuery.Proofs.Toml.Comments
set_option autoImplicit false

/-!
# What runs do to files

Of all runs, in whatever order and from whatever directories, only those of `init` change something,
and only by writing one settings file. Where there was none, the new file leaves the settings of
every directory as they were.
-/

namespace SearchQuery.Command

open Arguments (Command)

/-- The command that a call asks for, unless its words ask for help or are malformed. -/
def requested? (invocation : Invocation) : Option Command :=
  (Arguments.read invocation.words).toOption.map Arguments.Request.command

/-- The exit code of a run. A malformed command line has one of its own. -/
def exitCode (volume : Volume) (invocation : Invocation) : Nat :=
  ((run volume invocation).map Outcome.exitCode).getD 2

def volumeAfter (volume : Volume) (invocation : Invocation) : Volume :=
  ((run volume invocation).map Outcome.volume).getD volume

/-- The tree after one run after another. -/
def volumeAfterAll (volume : Volume) (invocations : List Invocation) : Volume :=
  invocations.foldl volumeAfter volume

/-- The place of the settings file that `init` is to create. -/
def initPlace (invocation : Invocation) (inHome : Bool) : List String :=
  (if inHome = true ∨ invocation.directory = invocation.home then invocation.home
    else invocation.directory) ++ [settingsFileName]

/-- What a run does to a tree: nothing, or it writes a template, which only `init` does and only if
the run succeeds. -/
inductive Effect (volume : Volume) (invocation : Invocation) : Volume → Prop where
  | unchanged : Effect volume invocation volume
  | written {inHome force : Bool} {directory : List String} {text : String} {after : Volume} :
      requested? invocation = some (.init inHome force) → exitCode volume invocation = 0 →
      initPlace invocation inHome = directory ++ [settingsFileName] →
      (force = false → volume.exists? (Configuration.fileIn directory) = false) →
      SettingsFile.parse text = .ok {} →
      volume.write directory settingsFileName text = .ok after →
      Effect volume invocation after

section

variable {volume : Volume} {invocation : Invocation}

theorem runCommand_volume {home directory : List String} {command : Command}
    (other : ∀ inHome force, command ≠ .init inHome force) :
    (runCommand volume home directory command).volume = volume := by
  cases command with
  | init inHome force => exact absurd rfl (other inHome force)
  | parse queries mode fieldConjunction format =>
      rw [runCommand]
      · cases Configuration.load volume home directory with
        | error error => rfl
        | ok configuration => cases format <;> rfl
      · exact other
  | tokens query json =>
      rw [runCommand]
      · cases Configuration.load volume home directory with
        | error error => rfl
        | ok configuration =>
            simp only [runTokens]
            repeat' split
            all_goals rfl
      · exact other
  | config =>
      rw [runCommand]
      · cases Configuration.load volume home directory <;> rfl
      · exact other

/-- A run has the exit code and the tree of its command. -/
theorem run_of_requested (volume : Volume) {command : Command}
    (asked : requested? invocation = some command) :
    exitCode volume invocation =
        (runCommand volume invocation.home invocation.directory command).exitCode ∧
      volumeAfter volume invocation =
        (runCommand volume invocation.home invocation.directory command).volume := by
  rw [requested?] at asked
  rw [exitCode, volumeAfter, run]
  cases words : Arguments.read invocation.words with
  | error refusal =>
      rw [words] at asked
      cases asked
  | ok request =>
      rw [words] at asked
      cases asked
      exact ⟨rfl, rfl⟩

theorem volumeAfter_of_not_requested (nothing : requested? invocation = none) :
    volumeAfter volume invocation = volume := by
  rw [requested?] at nothing
  rw [volumeAfter, run]
  cases words : Arguments.read invocation.words with
  | error refusal => cases refusal <;> rfl
  | ok request =>
      rw [words] at nothing
      cases nothing

/-- Creating a settings file fails and leaves the tree, or it writes a template. -/
theorem runInit_cases (volume : Volume) (home directory : List String) (inHome force : Bool) :
    (runInit volume home directory inHome force).volume = volume ∨
      (runInit volume home directory inHome force).exitCode = 0 ∧
        ∃ place text,
          place = (if inHome = true ∨ directory = home then home else directory) ∧
          (force = false → volume.exists? (Configuration.fileIn place) = false) ∧
          SettingsFile.parse text = .ok {} ∧
          volume.write place settingsFileName text =
            .ok (runInit volume home directory inHome force).volume := by
  have silent (atHome : Bool) :
      SettingsFile.parse (if atHome then Template.globalFile else Template.localFile) = .ok {} := by
    cases atHome
    · exact Template.parse_localFile
    · exact Template.parse_globalFile
  have place : (if (inHome || directory == home) = true then home else directory) =
      if inHome = true ∨ directory = home then home else directory := by
    simp only [Bool.or_eq_true, beq_iff_eq]
  rw [runInit, place]
  generalize (if inHome = true ∨ directory = home then home else directory) = place
  simp only []
  split
  · exact .inl rfl
  · rename_i allowed
    cases written : volume.write place settingsFileName _ with
    | error fault => exact .inl rfl
    | ok after =>
        refine .inr ⟨rfl, place, _, rfl, fun unforced => ?_, silent _, written⟩
        simpa [unforced] using allowed

/-- What one run does. -/
theorem effect_volumeAfter (volume : Volume) (invocation : Invocation) :
    Effect volume invocation (volumeAfter volume invocation) := by
  cases asked : requested? invocation with
  | none =>
      rw [volumeAfter_of_not_requested asked]
      exact .unchanged
  | some command =>
      obtain ⟨code, tree⟩ := run_of_requested volume asked
      rw [tree]
      by_cases creates : ∃ inHome force, command = .init inHome force
      · obtain ⟨inHome, force, rfl⟩ := creates
        rcases runInit_cases volume invocation.home invocation.directory inHome force with
          same | ⟨succeeded, place, text, target, unforced, silent, written⟩
        · rw [runCommand, same]
          exact .unchanged
        · exact .written asked (code.trans succeeded) (by rw [initPlace, target]) unforced silent
            written
      · rw [runCommand_volume fun inHome force same => creates ⟨inHome, force, same⟩]
        exact .unchanged

theorem Effect.eq_of_not_init {after : Volume} (effect : Effect volume invocation after)
    (other : ∀ inHome force, requested? invocation ≠ some (.init inHome force)) :
    after = volume := by
  cases effect with
  | unchanged => rfl
  | written asked => exact absurd asked (other _ _)

theorem Effect.eq_of_failed {after : Volume} (effect : Effect volume invocation after)
    (failed : exitCode volume invocation ≠ 0) : after = volume := by
  cases effect with
  | unchanged => rfl
  | written _ succeeded => exact absurd succeeded failed

theorem Effect.isTree {after : Volume} (effect : Effect volume invocation after)
    (tree : volume.IsTree) : after.IsTree := by
  cases effect with
  | unchanged => exact tree
  | written _ _ _ _ _ written =>
      obtain ⟨isDirectory, free, rfl⟩ := Volume.write_eq_ok written
      exact tree.insert Configuration.isName_settingsFileName isDirectory free _

theorem isTree_volumeAfterAll (tree : volume.IsTree) (invocations : List Invocation) :
    (volumeAfterAll volume invocations).IsTree := by
  induction invocations generalizing volume with
  | nil => exact tree
  | cons invocation invocations ih => exact ih ((effect_volumeAfter volume invocation).isTree tree)

/-- In a tree, a run leaves every place but that of the settings file, and unless forced it leaves
that too if something is there. -/
theorem Effect.place_of_changed {after : Volume} (effect : Effect volume invocation after)
    (tree : volume.IsTree) {inHome force : Bool}
    (asked : requested? invocation = some (.init inHome force)) {place : List String}
    (changed : after.get? place ≠ volume.get? place) :
    place = initPlace invocation inHome ∧ (force = false → volume.get? place = none) := by
  cases effect with
  | unchanged => exact absurd rfl changed
  | @written _ _ directory text _ request _ target unforced _ written =>
      obtain ⟨rfl, rfl⟩ : inHome = _ ∧ force = _ := by simpa [asked] using request
      obtain ⟨_, _, rfl⟩ := Volume.write_eq_ok written
      have same := Volume.eq_of_get?_insert_ne changed
      refine ⟨same.trans target.symm, fun gentle => ?_⟩
      rw [same]
      cases found : volume.get? (directory ++ [settingsFileName]) with
      | none => rfl
      | some entry =>
          have missing := unforced gentle
          rw [Volume.exists?, Configuration.fileIn, tree.find_ofComponents (by simp) found]
            at missing
          cases missing

theorem Effect.settings_load_eq {after : Volume} (effect : Effect volume invocation after)
    {place : List String} (empty : volume.get? place = none) (created : after.get? place ≠ none)
    (home directory : List String) :
    (Configuration.load after home directory).map Configuration.settings =
      (Configuration.load volume home directory).map Configuration.settings := by
  cases effect with
  | unchanged => rfl
  | @written _ _ target text _ _ _ _ _ silent written =>
      obtain ⟨_, _, rfl⟩ := Volume.write_eq_ok written
      have same := Volume.eq_of_get?_insert_ne (empty ▸ created)
      rw [same] at empty
      exact (Configuration.padded_insert empty silent).settings_load_eq home directory

end

/-- A home directory and a directory below it, without settings files. -/
def workVolume : Volume :=
  (Volume.empty.insert ["home"] .directory).insert ["home", "work"] .directory

/-- A call from the directory below the home directory. -/
def workCall (words : List String) : Invocation where
  words := words
  directory := ["home", "work"]
  home := ["home"]

end SearchQuery.Command
