import SearchQuery.Settings
set_option autoImplicit false

/-!
# Arguments

The command line is read from left to right. Words that start with a hyphen, other than a lone one,
are options; short options may be written together, and a value follows its option in the same word
or the next one. Two hyphens end the options. What an option says is checked when it is read, and no
option but `-v` may be given twice.
-/

namespace SearchQuery.Arguments

inductive OutputFormat where
  | tree
  | sexpr
  | json
deriving DecidableEq, Repr, Inhabited

/-- What is asked of the program. -/
inductive Command where
  | parse (queries : List String) (mode : Option Mode) (fieldConjunction : Option Bool)
      (format : OutputFormat)
  | tokens (query : String) (json : Bool)
  | init (inHome force : Bool)
  | config
deriving DecidableEq, Repr

/-- What a command line asks for, and how many `-v` options count. -/
structure Request where
  verbosity : Nat
  command : Command
deriving DecidableEq, Repr

/-- Why a command line is not carried out: it asks for help, or it is malformed. -/
inductive Refusal where
  | help
  | usage
deriving DecidableEq, Repr

inductive CommandName where
  | parse
  | tokens
  | init
  | config
deriving DecidableEq, Repr

def CommandName.name : CommandName → String
  | parse => "parse"
  | tokens => "tokens"
  | init => "init"
  | config => "config"

def CommandName.about : CommandName → String
  | parse => "Parse queries and print their syntax trees"
  | tokens => "Show the tokens a query is split into"
  | init => "Initialize fts configuration in current directory"
  | config => "Show effective configuration settings"

/-- Every command, each once, in the order in which help lists them. -/
def CommandName.all : List CommandName :=
  [parse, tokens, init, config]

def CommandName.ofName? (text : String) : Option CommandName :=
  all.find? fun command => command.name == text

inductive Switch where
  | verbose
  | help
  | mode
  | fieldConnective
  | format
  | json
  | inHome
  | force
deriving DecidableEq, Repr

namespace Switch

def all : List Switch :=
  [verbose, help, mode, fieldConnective, format, json, inHome, force]

def long : Switch → String
  | verbose => "verbose"
  | help => "help"
  | mode => "mode"
  | fieldConnective => "field-connective"
  | format => "format"
  | json => "json"
  | inHome => "global"
  | force => "force"

def short? : Switch → Option Char
  | verbose => some 'v'
  | help => some 'h'
  | mode => some 'm'
  | format => some 'f'
  | fieldConnective | json | inHome | force => none

def takesValue : Switch → Bool
  | mode | fieldConnective | format => true
  | verbose | help | json | inHome | force => false

/-- The options of a command, and those that stand before any command. -/
def ofCommand : Option CommandName → List Switch
  | none => [verbose, help]
  | some .parse => [verbose, help, mode, fieldConnective, format]
  | some .tokens => [verbose, help, json]
  | some .init => [verbose, help, inHome, force]
  | some .config => [verbose, help]

end Switch

/-- What has been read so far: how many `-v`, the values of options, and the words that are no
options. -/
structure Draft where
  verbosity : Nat := 0
  mode : Option Mode := none
  fieldConjunction : Option Bool := none
  format : Option OutputFormat := none
  json : Bool := false
  inHome : Bool := false
  force : Bool := false
  operands : List String := []
deriving DecidableEq, Repr

def connectiveOf? (value : String) : Option Bool :=
  if value = "and" then some true else if value = "or" then some false else none

def formatOf? (value : String) : Option OutputFormat :=
  if value = "tree" then some .tree
  else if value = "sexpr" then some .sexpr
  else if value = "json" then some .json
  else none

/-- Sets something that is not yet set to a value that must exist. -/
def setOnce {α : Type} (current value : Option α) : Except Refusal (Option α) :=
  match current, value with
  | none, some value => .ok (some value)
  | _, _ => .error .usage

/-- Sets a mark that is not yet set. -/
def markOnce (current : Bool) : Except Refusal Bool :=
  if current then .error .usage else .ok true

namespace Draft

/-- What is read when an option without a value comes next. -/
def flag (draft : Draft) : Switch → Except Refusal Draft
  | .verbose => .ok { draft with verbosity := draft.verbosity + 1 }
  | .help => .error .help
  | .json => do return { draft with json := ← markOnce draft.json }
  | .inHome => do return { draft with inHome := ← markOnce draft.inHome }
  | .force => do return { draft with force := ← markOnce draft.force }
  | .mode | .fieldConnective | .format => .error .usage

/-- What is read when an option with a value comes next. -/
def option (draft : Draft) (value : String) : Switch → Except Refusal Draft
  | .mode => do return { draft with mode := ← setOnce draft.mode (Mode.ofText? value) }
  | .fieldConnective => do
      return { draft with
        fieldConjunction := ← setOnce draft.fieldConjunction (connectiveOf? value) }
  | .format => do return { draft with format := ← setOnce draft.format (formatOf? value) }
  | .verbose | .help | .json | .inHome | .force => .error .usage

end Draft

/-- The options in a word of short options that come before one with a value, and that one with the
rest of the word. -/
def cluster (allowed : List Switch) :
    Draft → List Char → Except Refusal (Draft × Option (Switch × List Char))
  | draft, [] => .ok (draft, none)
  | draft, letter :: rest =>
      match allowed.find? fun switch => switch.short? == some letter with
      | none => .error .usage
      | some switch =>
          if switch.takesValue then .ok (draft, some (switch, rest))
          else do cluster allowed (← draft.flag switch) rest

/-- Whether a word is an option: it starts with a hyphen and is longer. -/
def isOption (word : String) : Bool :=
  match word.toList with
  | '-' :: _ :: _ => true
  | _ => false

/-- An option whose value is in the next word. -/
def withNext (draft : Draft) (switch : Switch) :
    List String → Except Refusal (Draft × List String)
  | [] => .error .usage
  | value :: rest =>
      if isOption value then .error .usage
      else do return (← draft.option value switch, rest)

/-- A word that is an option, and what it takes from the next words. -/
def readOption (allowed : List Switch) (draft : Draft) (word : String) (rest : List String) :
    Except Refusal (Draft × List String) :=
  match word.toList with
  | '-' :: '-' :: name =>
      let named := String.ofList (name.takeWhile (· != '='))
      match allowed.find? fun switch => switch.long == named, name.dropWhile (· != '=') with
      | none, _ => .error .usage
      | some switch, [] =>
          if switch.takesValue then withNext draft switch rest
          else do return (← draft.flag switch, rest)
      | some switch, _ :: value => do
          return (← draft.option (String.ofList value) switch, rest)
  | _ :: letters => do
      match ← cluster allowed draft letters with
      | (draft, none) => return (draft, rest)
      | (draft, some (switch, [])) => withNext draft switch rest
      | (draft, some (switch, '=' :: value)) =>
          return (← draft.option (String.ofList value) switch, rest)
      | (draft, some (switch, value)) =>
          return (← draft.option (String.ofList value) switch, rest)
  | [] => .error .usage

/-- How many words a command takes that are no options; `none` for any number. -/
def maxOperands : CommandName → Option Nat
  | .parse => none
  | .tokens => some 1
  | .init | .config => some 0

def addOperands (command : CommandName) (draft : Draft) (words : List String) :
    Except Refusal Draft :=
  let operands := draft.operands ++ words
  match maxOperands command with
  | none => .ok { draft with operands }
  | some limit => if operands.length ≤ limit then .ok { draft with operands } else .error .usage

/-- Reads the words after the name of a command, in at most so many steps. -/
def readCommand (command : CommandName) : Nat → Draft → List String → Except Refusal Draft
  | 0, draft, _ => .ok draft
  | _ + 1, draft, [] => .ok draft
  | steps + 1, draft, word :: rest =>
      if word = "--" then addOperands command draft rest
      else if isOption word then do
        let (draft, rest) ← readOption (Switch.ofCommand (some command)) draft word rest
        readCommand command steps draft rest
      else do readCommand command steps (← addOperands command draft [word]) rest

/-- The command of what has been read, if nothing is missing. -/
def Draft.command (draft : Draft) : CommandName → Except Refusal Command
  | .parse =>
      match draft.operands with
      | [] => .error .usage
      | queries =>
          .ok (.parse queries draft.mode draft.fieldConjunction (draft.format.getD .tree))
  | .tokens =>
      match draft.operands with
      | query :: _ => .ok (.tokens query draft.json)
      | [] => .error .usage
  | .init => .ok (.init draft.inHome draft.force)
  | .config => .ok .config

/-- What the words after `help` ask for: at most one of them, the name of a command. -/
def readHelp : List String → Refusal
  | [] => .help
  | [word] => if (CommandName.ofName? word).isSome || word = "help" then .help else .usage
  | _ => .usage

/-- Reads the words up to the name of a command and those after it, in at most so many steps. Where
`-v` stands on both sides of the name, what comes after it counts. -/
def readWords : Nat → Draft → List String → Except Refusal Request
  | 0, _, _ => .error .usage
  | _ + 1, _, [] => .error .usage
  | steps + 1, draft, word :: rest =>
      if word = "--" then .error .usage
      else if isOption word then do
        let (draft, rest) ← readOption (Switch.ofCommand none) draft word rest
        readWords steps draft rest
      else if word = "help" then .error (readHelp rest)
      else
        match CommandName.ofName? word with
        | none => .error .usage
        | some name => do
            let inner ← readCommand name (rest.length + 1) {} rest
            let command ← inner.command name
            let verbosity := if inner.verbosity = 0 then draft.verbosity else inner.verbosity
            return ⟨verbosity, command⟩

def read (words : List String) : Except Refusal Request :=
  readWords (words.length + 1) {} words

end SearchQuery.Arguments
