import SearchQuery.Command.Arguments
import SearchQuery.Command.Table
import SearchQuery.Configuration.Load
import SearchQuery.Configuration.Template
import SearchQuery.Error.Message
import SearchQuery.Log.Filter
import SearchQuery.Tree.Rendering
set_option autoImplicit false

/-!
# Running commands

A run is a function of the directory tree, the command line and its surroundings. It yields the exit
code, what is printed, what is reported on the error stream, and the tree afterwards. Only `init`
yields another tree.

What is reported stays structured, because the times of events and the wording of TOML faults are
not decided here.
-/

namespace SearchQuery.Command

open Arguments (Command OutputFormat Request Refusal CommandName)
open Log (Filter FilterFault)

/-- A call of the program: its words, the working directory and the home directory by their
components, and the two variables that may hold a filter of events, the first counting more. -/
structure Invocation where
  words : List String
  directory : List String
  home : List String
  filterText : Option String := none
  fallbackFilterText : Option String := none
deriving DecidableEq, Repr, Inhabited

/-- What is reported on the error stream. -/
inductive Report where
  | event (event : Event)
  | invalidFilter (text : String) (fault : FilterFault)
  | queryError (error : QueryError)
  | configurationError (error : ConfigurationError)
  | fileExists (path : String)
  | unwritable (path : String) (fault : FileFault)
deriving DecidableEq, Repr

namespace Report

/-- A report as text, given the time of events and the wording of TOML faults, which closes its own
line. -/
def render (time : String) (describe : Toml.Fault → String) : Report → String
  | event logged => Log.line time logged ++ "\n"
  | invalidFilter text fault =>
      "warning: ignoring invalid log filter '" ++ text ++ "': " ++ fault.message ++ "\n"
  | queryError error => "error: " ++ Text.trimEnd (error.display?.getD error.message) ++ "\n"
  | configurationError error =>
      "error: failed to load configuration: " ++ error.message describe ++
        match error with
        | .malformed _ _ => ""
        | .unreadable _ _ => "\n"
  | fileExists path =>
      "error: configuration file already exists: " ++ path ++ "\nuse --force to overwrite\n"
  | unwritable path fault => "error: failed to write " ++ path ++ ": " ++ fault.message ++ "\n"

end Report

structure Outcome where
  exitCode : Nat
  printed : String
  reports : List Report
  volume : Volume
deriving DecidableEq, Repr, Inhabited

def helpText : String :=
  "Parse Alfresco full-text search queries into syntax trees\n\n" ++
    "Usage: fts [OPTIONS] <COMMAND>\n\n" ++
    "Commands:\n" ++
    String.join (CommandName.all.map fun command =>
      "  " ++ Table.fill 10 command.name ++ " " ++ command.about ++ "\n") ++
    "  " ++ Table.fill 10 "help" ++
    " Print this message or the help of the given subcommand(s)\n\n" ++
    "Options:\n  -v, --verbose...  Diagnostic logging on stderr\n  -h, --help        Print help\n"

/-! ### Parsing queries -/

/-- The settings of a configuration with those of the command line in their place. -/
def effectiveSettings (settings : Settings) (mode : Option Mode) (fieldConjunction : Option Bool) :
    Settings where
  mode := mode.getD settings.mode
  fieldConjunction := fieldConjunction.getD settings.fieldConjunction

/-- An error as data; what is not known is left out. -/
def errorJson (error : QueryError) : Json :=
  let parseError? := error.parseError?
  .object ([("message", .string error.message), ("offset", .ofNat error.position)] ++
    Json.member? "kind" (parseError?.map fun parseError => .string parseError.fault.name) ++
    Json.member? "rule" ((parseError?.bind ParseError.rule?).map .string) ++
    Json.member? "hint" (error.hint?.map .string))

/-- A query and what became of it, as data. -/
def queryJson (settings : Settings) (query : String) : Json :=
  .object (("query", .string query) ::
    match parse settings query with
    | .ok tree => [("ast", tree.toJson)]
    | .error error => [("error", errorJson error)])

/-- What is printed and reported for the queries of a list. The index counts the queries before
them. -/
def parseTexts (settings : Settings) (format : OutputFormat) (headed : Bool) :
    Nat → List String → String × List Report
  | _, [] => ("", [])
  | index, query :: rest =>
      let heading :=
        if headed then (if index = 0 then "" else "\n") ++ "# " ++ query ++ "\n" else ""
      let (text, failure) := match parse settings query with
        | .ok tree =>
            (if format = .sexpr then tree.sexpr ++ "\n" else tree.outline, [])
        | .error error => ("", [Report.queryError error])
      let (texts, reports) := parseTexts settings format headed (index + 1) rest
      (heading ++ text ++ texts,
        (Trace.ofQuery settings query).map Report.event ++ failure ++ reports)

/-- Parses queries; it fails if one of them does. -/
def runParse (volume : Volume) (settings : Settings) (format : OutputFormat)
    (queries : List String) : Outcome :=
  let failed := queries.any fun query => !(parse settings query).isOk
  let exitCode := if failed then 1 else 0
  let first := Report.event (.effectiveSettings settings)
  match format with
  | .json =>
      let document : Json := .object [("queries", .array (queries.map (queryJson settings)))]
      let events := queries.flatMap fun query => (Trace.ofQuery settings query).map Report.event
      ⟨exitCode, document.pretty ++ "\n", first :: events, volume⟩
  | .tree | .sexpr =>
      let headed := 1 < queries.length && format == .tree
      let (printed, reports) := parseTexts settings format headed 0 queries
      ⟨exitCode, printed, first :: reports, volume⟩

/-! ### The other commands -/

def runTokens (volume : Volume) (query : String) (json : Bool) : Outcome :=
  match tokenize query with
  | .error error => ⟨1, "", [.queryError (.ofLexError error)], volume⟩
  | .ok tokens =>
      if json then
        let document : Json :=
          .object [("query", .string query), ("tokens", .array (tokens.map Token.toJson))]
        ⟨0, document.pretty ++ "\n", [], volume⟩
      else if tokens.isEmpty then ⟨0, "(no tokens)\n", [], volume⟩
      else ⟨0, Table.ofTokens tokens ++ "\n", [], volume⟩

/-- Shows the settings that hold and the files they come from. -/
def runConfig (volume : Volume) (configuration : Configuration) : Outcome :=
  let heading :=
    if configuration.sources.isEmpty then "# no .fts.toml files found; showing defaults\n"
    else
      "# sources (highest precedence first):\n" ++
        String.join (configuration.sources.map fun path => "#   " ++ path ++ "\n")
  ⟨0, heading ++ "\n" ++ configuration.settings.toToml, [], volume⟩

/-- Creates a settings file in the home directory, if that is asked for or is where the program was
called, else in the working directory. -/
def runInit (volume : Volume) (home directory : List String) (inHome force : Bool) : Outcome :=
  let atHome := inHome || directory == home
  let place := if atHome then home else directory
  let path := Configuration.fileIn place
  if volume.exists? path && !force then ⟨1, "", [.fileExists path], volume⟩
  else
    let text := if atHome then Template.globalFile else Template.localFile
    match volume.write place settingsFileName text with
    | .error fault => ⟨1, "", [.unwritable path fault], volume⟩
    | .ok written =>
        ⟨0, "Created " ++ path ++ "\nUncomment the settings you want to change.\n", [], written⟩

/-- Carries out a command. All but `init` need the configuration of the working directory. -/
def runCommand (volume : Volume) (home directory : List String) : Command → Outcome
  | .init inHome force => runInit volume home directory inHome force
  | command =>
      match Configuration.load volume home directory with
      | .error error => ⟨1, "", [.configurationError error], volume⟩
      | .ok configuration =>
          match command with
          | .parse queries mode fieldConjunction format =>
              let settings := effectiveSettings configuration.settings mode fieldConjunction
              runParse volume settings format queries
          | .tokens query json => runTokens volume query json
          | .config => runConfig volume configuration
          | .init inHome force => runInit volume home directory inHome force

/-- The filter of events of a call, and what is reported about it. A text that is no filter lets
warnings through. -/
def chooseFilter (invocation : Invocation) (verbosity : Nat) : Option Filter × List Report :=
  match invocation.filterText.or invocation.fallbackFilterText with
  | none => (Log.filterOfVerbosity verbosity, [])
  | some text =>
      match Filter.parse text with
      | .ok filter => (some filter, [])
      | .error fault => (some (Filter.ofLevel .warn), [.invalidFilter text fault])

/-- Whether a report is made: events only if the filter lets them through. -/
def isReported (filter : Option Filter) : Report → Bool
  | .event event => filter.any fun filter => filter.lets event
  | _ => true

/-- Runs the program. A malformed command line has no outcome. -/
def run (volume : Volume) (invocation : Invocation) : Option Outcome :=
  match Arguments.read invocation.words with
  | .error .usage => none
  | .error .help => some ⟨0, helpText, [], volume⟩
  | .ok request =>
      let (filter, warnings) := chooseFilter invocation request.verbosity
      let outcome := runCommand volume invocation.home invocation.directory request.command
      some { outcome with reports := warnings ++ outcome.reports.filter (isReported filter) }

end SearchQuery.Command
