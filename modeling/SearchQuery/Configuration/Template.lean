set_option autoImplicit false

/-!
# Templates of settings files

A new settings file shows every setting in a comment, so that it changes nothing until a line is
uncommented.
-/

namespace SearchQuery.Template

/-- The lines of the file for a directory and all below it. -/
def localLines : List String :=
  ["# fts project configuration",
    "#",
    "# Settings here apply to queries parsed from this directory and below. Files",
    "# closer to the working directory take precedence over parent directories and",
    "# over ~/.fts.toml.",
    "",
    "# Stop looking for .fts.toml files in parent directories and ~/.fts.toml.",
    "root = true",
    "",
    "[parser]",
    "# Query dialect and implicit connective between adjacent terms:",
    "# \"default-conjunction\" (AND), \"default-disjunction\" (OR), or \"cmis\" for the",
    "# restricted CMIS contains() syntax.",
    "mode = \"default-conjunction\"",
    "",
    "# Combine adjacent terms inside field:( ... ) groups with AND (true) or OR (false).",
    "default_field_conjunction = true"]

/-- The lines of the file for a home directory. -/
def globalLines : List String :=
  ["# fts global configuration (~/.fts.toml)",
    "#",
    "# Defaults for every directory. Any .fts.toml between the working directory and",
    "# the filesystem root overrides these values field by field.",
    "",
    "[parser]",
    "# \"default-conjunction\", \"default-disjunction\" or \"cmis\".",
    "mode = \"default-conjunction\"",
    "",
    "# Combine adjacent terms inside field:( ... ) groups with AND (true) or OR (false).",
    "default_field_conjunction = true"]

/-- A line as a comment. Empty lines and comments stay as they are. -/
def commented (line : String) : String :=
  match line.toList with
  | [] => line
  | '#' :: _ => line
  | _ => "# " ++ line

def ofLines (lines : List String) : String :=
  String.join (lines.map fun line => commented line ++ "\n")

def localFile : String :=
  ofLines localLines

def globalFile : String :=
  ofLines globalLines

end SearchQuery.Template
