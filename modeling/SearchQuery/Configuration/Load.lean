import SearchQuery.Configuration.File
import SearchQuery.Files.Volume
set_option autoImplicit false

/-!
# Loading settings

The settings files that count are those in a directory and in the directories above it, nearest
first, up to one that says it is the root; only if none says so, the file in the home directory
comes last. Each setting has the value of the first file that defines it.
-/

namespace SearchQuery

def settingsFileName : String := ".fts.toml"

/-- Why settings cannot be loaded: a file cannot be read, or it is no settings file. -/
inductive ConfigurationError where
  | unreadable (path : String) (fault : FileFault)
  | malformed (path : String) (fault : Toml.Fault)
deriving DecidableEq, Repr

namespace ConfigurationError

/-- The file that is to blame. -/
def path : ConfigurationError → String
  | unreadable path _ => path
  | malformed path _ => path

/-- What is said about an error, given what is said about faults of TOML. -/
def message (describe : Toml.Fault → String) : ConfigurationError → String
  | unreadable path fault => "failed to read config file " ++ path ++ ": " ++ fault.message
  | malformed path fault => "failed to parse config file " ++ path ++ ": " ++ describe fault

end ConfigurationError

/-- The settings that hold, the directory of the file that counts most, and the files that count, in
the order in which they do. -/
structure Configuration where
  settings : Settings := Settings.standard
  root : Option String := none
  sources : List String := []
deriving DecidableEq, Repr, Inhabited

namespace Configuration

/-- The configuration that files make, the first counting most. -/
def merge (files : List (String × SettingsFile)) : Configuration where
  settings :=
    { mode := (files.findSome? fun file => file.2.mode?).getD Settings.standard.mode
      fieldConjunction :=
        (files.findSome? fun file => file.2.fieldConjunction?).getD
          Settings.standard.fieldConjunction }
  root := files.head?.bind fun file => Path.parent? file.1
  sources := files.map Prod.fst

def parseFile (path text : String) : Except ConfigurationError SettingsFile :=
  match SettingsFile.parse text with
  | .ok file => .ok file
  | .error fault => .error (.malformed path fault)

def readFile (volume : Volume) (path : String) : Except ConfigurationError SettingsFile :=
  match volume.read path with
  | .ok text => parseFile path text
  | .error fault => .error (.unreadable path fault)

/-- The configuration that the files at some paths make. The first that cannot be used decides the
error. -/
def loadFiles (volume : Volume) (paths : List String) :
    Except ConfigurationError Configuration := do
  let files ← paths.mapM fun path => do
    let file ← readFile volume path
    return (path, file)
  return merge files

/-- The settings file of a directory that is given by its components. -/
def fileIn (directory : List String) : String :=
  Path.ofComponents (directory ++ [settingsFileName])

/-- Whether a file can be used and says that it is the root. -/
def isRootFile (volume : Volume) (path : String) : Bool :=
  match readFile volume path with
  | .ok file => file.root == some true
  | .error _ => false

/-- The settings files of directories up to one that says it is the root, and whether there was
one. -/
def climb (volume : Volume) : List (List String) → List String × Bool
  | [] => ([], false)
  | directory :: above =>
      let path := fileIn directory
      if volume.isFile path then
        if isRootFile volume path then ([path], true)
        else
          let (paths, stopped) := climb volume above
          (path :: paths, stopped)
      else climb volume above

/-- The settings files that count for a directory. -/
def discover (volume : Volume) (home directory : List String) : List String :=
  let (paths, stopped) := climb volume (Path.ancestors directory)
  let globalFile := fileIn home
  if !stopped && volume.isFile globalFile && !paths.contains globalFile then paths ++ [globalFile]
  else paths

/-- The configuration that counts for a directory. -/
def load (volume : Volume) (home directory : List String) :
    Except ConfigurationError Configuration :=
  loadFiles volume (discover volume home directory)

end Configuration

end SearchQuery
