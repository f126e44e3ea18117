import SearchQuery.Settings
import SearchQuery.Toml.Document
set_option autoImplicit false

/-!
# Settings files

A settings file is a TOML document that may say two things: that no files above it count, and some
of the settings. Keys it does not know are passed over.
-/

namespace SearchQuery

/-- Settings of which each may be left open. -/
structure PartialSettings where
  mode : Option Mode := none
  fieldConjunction : Option Bool := none
deriving DecidableEq, Repr, Inhabited

structure SettingsFile where
  root : Option Bool := none
  settings : Option PartialSettings := none
deriving DecidableEq, Repr, Inhabited

namespace SettingsFile

open Toml (Value Fault)

def readBool (key : String) : Value → Except Fault Bool
  | .boolean value => .ok value
  | _ => .error (.unexpectedType key)

def namedMode (key name : String) : Except Fault Mode :=
  match Mode.ofName? name with
  | some mode => .ok mode
  | none => .error (.unexpectedType key)

/-- The mode of a key: its name, or a table whose only entry has the name as key and nothing as
value. -/
def readMode (key : String) : Value → Except Fault Mode
  | .string name => namedMode key name
  | .table [(name, .table [])] => namedMode key name
  | .table [(name, .array [])] => namedMode key name
  | _ => .error (.unexpectedType key)

/-- Reads a value that may be absent. -/
def optional {α : Type} (read : Value → Except Fault α) : Option Value → Except Fault (Option α)
  | none => .ok none
  | some value => (read value).map some

/-- The settings of a key: a table, or an array that gives them by position. What follows in the
array is passed over. A date stands for a table that has none of the keys. -/
def readSettings (key : String) : Value → Except Fault PartialSettings
  | .table entries => do
      let mode ← optional (readMode "mode") (entries.lookup "mode")
      let fieldConjunction ← optional (readBool "default_field_conjunction")
        (entries.lookup "default_field_conjunction")
      return ⟨mode, fieldConjunction⟩
  | .array items => do
      let mode ← optional (readMode "mode") items[0]?
      let fieldConjunction ← optional (readBool "default_field_conjunction") items[1]?
      return ⟨mode, fieldConjunction⟩
  | .datetime _ => .ok {}
  | _ => .error (.unexpectedType key)

def ofEntries (entries : List (String × Value)) : Except Fault SettingsFile := do
  let root ← optional (readBool "root") (entries.lookup "root")
  let settings ← optional (readSettings "parser") (entries.lookup "parser")
  return ⟨root, settings⟩

def parse (text : String) : Except Fault SettingsFile := do
  ofEntries (← Toml.parse text)

def mode? (file : SettingsFile) : Option Mode :=
  file.settings.bind PartialSettings.mode

def fieldConjunction? (file : SettingsFile) : Option Bool :=
  file.settings.bind PartialSettings.fieldConjunction

end SettingsFile

def Settings.toToml (settings : Settings) : String :=
  "[parser]\nmode = \"" ++ settings.mode.name ++ "\"\ndefault_field_conjunction = " ++
    (if settings.fieldConjunction then "true" else "false") ++ "\n"

end SearchQuery
