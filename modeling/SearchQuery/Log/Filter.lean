import SearchQuery.Text.Blank
import SearchQuery.Token.Word
import SearchQuery.Trace
set_option autoImplicit false

/-!
# Filters of events

A filter is a list of directives with commas between them. A directive gives a level for all events
or for those whose target begins with a text; the longest such text decides, and of equal ones the
last. A directive with brackets is about spans, of which there are none.
-/

namespace SearchQuery.Log

/-- The levels of a filter, each letting through what those before it do and more. -/
inductive Level where
  | off
  | error
  | warn
  | info
  | debug
  | trace
deriving DecidableEq, Repr

namespace Level

/-- Every level with its name, each once. -/
def all : List (String × Level) :=
  [("off", off), ("error", error), ("warn", warn), ("info", info), ("debug", debug),
    ("trace", trace)]

/-- The level with a number from zero to five, which may have a plus sign and leading zeros. -/
def ofNumber? (characters : List Char) : Option Level :=
  let digits := match characters with
    | '+' :: rest => rest
    | other => other
  if Word.isInteger digits then
    match digits.dropWhile (· == '0') with
    | [] => some off
    | ['1'] => some error
    | ['2'] => some warn
    | ['3'] => some info
    | ['4'] => some debug
    | ['5'] => some trace
    | _ => none
  else none

/-- The level that a text names, by number or by name in any case. -/
def ofText? (characters : List Char) : Option Level :=
  match ofNumber? characters with
  | some level => some level
  | none =>
      (all.find? fun named => Word.eqIgnoringCase named.1.toList characters).map Prod.snd

def rank : Level → Nat
  | off => 0
  | error => 1
  | warn => 2
  | info => 3
  | debug => 4
  | trace => 5

def lets (level : Level) : Severity → Bool
  | .debug => debug.rank ≤ level.rank
  | .trace => trace.rank ≤ level.rank

end Level

inductive FilterFault where
  | level
  | directive
deriving DecidableEq, Repr

def FilterFault.message : FilterFault → String
  | level =>
      "error parsing level filter: expected one of \"off\", \"error\", \"warn\", \"info\", " ++
        "\"debug\", \"trace\", or a number 0-5"
  | directive => "invalid filter directive"

/-- What one directive says: for events whose target begins with a text, or for all, so much is let
through. A directive about spans says nothing about events. -/
structure Directive where
  target : Option (List Char)
  level : Level
  aboutSpans : Bool := false
deriving DecidableEq, Repr

namespace Directive

/-- Whether a character may begin a directive other than a bracket. -/
def canBegin (character : Char) : Bool :=
  ['-', ':', '_'].contains character || Word.isLetter character || Word.isDigit character ||
    (0x80 ≤ character.toNat && !Text.isBlank character)

/-- The level after an equals sign; everything, when there is no text. -/
def levelOf (characters : List Char) : Except FilterFault Level :=
  if characters.isEmpty then .ok .trace
  else
    match Level.ofText? characters with
    | some level => .ok level
    | none => .error .level

/-- Whether the text after an opening bracket, from the bracket that closes it on, is well formed:
nothing, or an equals sign. -/
def afterSpan (characters : List Char) : Except FilterFault Level :=
  match characters.dropWhile (· != ']') with
  | [']'] => .ok .trace
  | ']' :: '=' :: level => levelOf level
  | _ => .error .directive

/-- Reads a directive. The blanks around it are passed over to find where it is divided, and are not
taken off its parts. -/
def parse (directive : List Char) : Except FilterFault Directive :=
  let trimmed := (directive.dropWhile Text.isBlank).reverse.dropWhile Text.isBlank |>.reverse
  match trimmed with
  | [] => .error .directive
  | '[' :: rest => (afterSpan rest).map fun level => ⟨none, level, true⟩
  | first :: _ =>
      if canBegin first then
        let name := trimmed.takeWhile fun character => character != '=' && character != '['
        let length := name.length
        match trimmed[length]? with
        | some '=' =>
            (levelOf (directive.drop (length + 1))).map fun level =>
              ⟨some (directive.take length), level, false⟩
        | some _ =>
            (afterSpan (trimmed.drop (length + 1))).map fun level =>
              ⟨some (directive.take length), level, true⟩
        | none =>
            match Level.ofText? directive with
            | some level => .ok ⟨none, level, false⟩
            | none => .ok ⟨some directive, .trace, false⟩
      else .error .directive

/-- Whether a directive is about the events of a target. -/
def isAbout (directive : Directive) (target : List Char) : Bool :=
  !directive.aboutSpans && (directive.target.getD []).isPrefixOf target

/-- How closely a directive describes a target. One for everything is the loosest. -/
def closeness (directive : Directive) : Nat :=
  match directive.target with
  | none => 0
  | some target => target.length + 1

end Directive

structure Filter where
  directives : List Directive
deriving DecidableEq, Repr

namespace Filter

/-- The parts of a text between commas, empty ones left out. -/
def parts (characters : List Char) : List (List Char) :=
  ((String.ofList characters).splitOn ",").map String.toList |>.filter (!List.isEmpty ·)

/-- Reads a filter. Without any directive it lets errors through. -/
def parse (text : String) : Except FilterFault Filter := do
  match ← (parts text.toList).mapM Directive.parse with
  | [] => return ⟨[⟨none, .error, false⟩]⟩
  | directives => return ⟨directives⟩

/-- A filter that names some targets and gives them one level. -/
def ofTargets (level : Level) (targets : List String) : Filter :=
  ⟨targets.map fun target => ⟨some target.toList, level, false⟩⟩

def ofLevel (level : Level) : Filter :=
  ⟨[⟨none, level, false⟩]⟩

/-- The directive that decides about a target: the closest, and of equally close ones the last. -/
def deciding? (filter : Filter) (target : String) : Option Directive :=
  filter.directives.foldl (fun best directive =>
    if directive.isAbout target.toList then
      match best with
      | none => some directive
      | some other => if other.closeness ≤ directive.closeness then some directive else best
    else best) none

def lets (filter : Filter) (event : Event) : Bool :=
  match filter.deciding? event.target with
  | some directive => directive.level.lets event.severity
  | none => false

end Filter

/-- The filter of a number of `-v` options: none without any, then one that lets more through the
more there are. -/
def filterOfVerbosity : Nat → Option Filter
  | 0 => none
  | 1 => some (Filter.ofTargets .debug ["fts", "fts_query", "fts_config"])
  | _ => some (Filter.ofTargets .trace ["fts", "fts_query", "fts_config"])

/-- An event as a line that is not closed, given its time. -/
def line (time : String) (event : Event) : String :=
  let severity := match event.severity with
    | .debug => "DEBUG"
    | .trace => "TRACE"
  time ++ " " ++ severity ++ " " ++ event.target ++ ": " ++ event.message ++
    String.join (event.fields.map fun (name, value) => " " ++ name ++ "=" ++ value)

end SearchQuery.Log
