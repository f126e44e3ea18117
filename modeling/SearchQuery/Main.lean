import SearchQuery.Command.Run
import Std.Time.DateTime
set_option autoImplicit false

/-!
# The program

What a run needs of the world is read before it: the working directory, the home directory, the
variables that may hold a filter, and the settings files that may count. What the run yields is
carried out after it.
-/

namespace SearchQuery

/-- What a settings file or something else of its name stands for, if there is such a thing. -/
def readEntry (path : String) : IO (Option Entry) := do
  match ← (IO.FS.readBinFile path).toBaseIO with
  | .ok bytes =>
      match String.fromUTF8? bytes with
      | some text => return some (.file (.text text))
      | none => return some (.file (.malformed bytes.toList))
  | .error (.noFileOrDirectory ..) => return none
  | .error _ => return some .directory

/-- A volume with those of some directories that exist, and what their settings files hold. -/
def readVolume (volume : Volume) : List (List String) → IO Volume
  | [] => return volume
  | place :: rest => do
      match ← (IO.FS.Handle.mk (Path.ofComponents (place ++ ["."])) .read).toBaseIO with
      | .error _ => readVolume volume rest
      | .ok _ =>
          let volume := volume.addDirectory place
          match ← readEntry (Configuration.fileIn place) with
          | none => readVolume volume rest
          | some entry => readVolume (volume.insert (place ++ [settingsFileName]) entry) rest

/-- Writes the files of a volume that another one does not hold. -/
def writeChanges (before after : Volume) : IO Unit :=
  after.entries.forM fun (place, entry) => do
    match entry with
    | .file (.text text) =>
        if before.get? place ≠ some entry then IO.FS.writeFile (Path.ofComponents place) text
    | _ => return ()

/-- A number in decimal digits, filled up with zeros on the left. -/
def padded (width number : Nat) : String :=
  let digits := (Nat.repr number).toList
  String.ofList (List.replicate (width - digits.length) '0' ++ digits)

/-- The date and the time of day, to the microsecond, in universal time. -/
def readTime : IO String := do
  let now := Std.Time.DateTime.ofTimestamp (← Std.Time.Timestamp.now) .UTC
  let date := "-".intercalate
    [padded 4 now.year.toInt.toNat, padded 2 now.month.val.toNat, padded 2 now.day.val.toNat]
  let time := ":".intercalate
    [padded 2 now.hour.val.toNat, padded 2 now.minute.val.toNat, padded 2 now.second.val.toNat]
  return date ++ "T" ++ time ++ "." ++ padded 6 (now.nanosecond.val.toNat / 1000) ++ "Z"

/-- The components of an absolute path to a directory. -/
def directoryComponents (path : String) : List String :=
  (Path.components path).filter (· ≠ ".")

def runProgram (words : List String) : IO UInt32 := do
  let some homePath ← IO.getEnv "HOME"
    | IO.eprintln "error: could not determine home directory"
      return 1
  let directory := directoryComponents (← IO.currentDir).toString
  let home := directoryComponents homePath
  let volume ← readVolume Volume.empty (Path.ancestors directory ++ [home])
  let invocation : Command.Invocation :=
    { words, directory, home
      filterText := ← IO.getEnv "FTS_LOG"
      fallbackFilterText := ← IO.getEnv "RUST_LOG" }
  match Command.run volume invocation with
  | none =>
      IO.eprintln "error: malformed command line\n\nFor more information, try '--help'."
      return 2
  | some outcome =>
      let time ← readTime
      try writeChanges volume outcome.volume
      catch fault =>
        IO.eprintln ("error: failed to write settings: " ++ fault.toString)
        return 1
      IO.print outcome.printed
      for report in outcome.reports do
        IO.eprint (report.render time fun fault => fault.message ++ "\n")
      return outcome.exitCode.toUInt32

end SearchQuery

def main (words : List String) : IO UInt32 :=
  SearchQuery.runProgram words
