import LexRules.Fault
import LexRules.Path
import LexRules.Toml.Document

/-! The settings of a project: which files are definition files, where they are looked for, and
which of them are left out. -/

namespace LexRules

structure Settings where
  extensions : List Text
  paths : List Text
  deep : Bool
  requireNamespace : Bool
  exclude : List Text
  deriving DecidableEq

namespace Settings

def defaultExtension : Text := "lex".toList

def defaultPath : Text := "lexf".toList

/-- The places of a settings file below a project root, the most important first. -/
def candidates : List Text :=
  ["lexdef.toml".toList, ".lexdef.toml".toList, ".config/lexdef.toml".toList]

def default : Settings := ⟨[defaultExtension], [defaultPath], false, false, []⟩

def strings? : List Toml.Value → Option (List Text)
  | [] => some []
  | .string t :: rest => (strings? rest).map (t :: ·)
  | _ :: _ => none

def stringList? : Toml.Value → Option (List Text)
  | .array items => strings? items
  | _ => none

def flag? : Toml.Value → Option Bool
  | .boolean b => some b
  | _ => none

/-- The patterns in the entries of a table; entries with other keys only have to be readable. -/
def patterns? : List (Text × Toml.Value) → List Text → Option (List Text)
  | [], patterns => some patterns
  | (key, v) :: rest, patterns =>
    if key = "patterns".toList then (stringList? v).bind (patterns? rest)
    else if v.isReadable then patterns? rest patterns
    else none

/-- The patterns of a value: a table, or an array that starts with them. A date has no entries. -/
def exclude? : Toml.Value → Option (List Text)
  | .table entries => patterns? entries []
  | .array [] => some []
  | .array (first :: _) => stringList? first
  | .moment => some []
  | _ => none

def applied? (s : Settings) (key : Text) (v : Toml.Value) : Option Settings :=
  if key = "extensions".toList then (stringList? v).map fun x => { s with extensions := x }
  else if key = "paths".toList then (stringList? v).map fun x => { s with paths := x }
  else if key = "deep".toList then (flag? v).map fun x => { s with deep := x }
  else if key = "require_namespace".toList then
    (flag? v).map fun x => { s with requireNamespace := x }
  else if key = "exclude".toList then (exclude? v).map fun x => { s with exclude := x }
  else if v.isReadable then some s
  else none

def appliedAll? (s : Settings) : List (Text × Toml.Value) → Option Settings
  | [] => some s
  | (key, v) :: rest => (applied? s key v).bind fun s => appliedAll? s rest

def parse (content : Text) : Except Fault Settings :=
  match (Toml.parse? content).bind (appliedAll? default) with
  | some settings => .ok settings
  | none => .error .badSettings

def searchPaths (s : Settings) (root : Path) : List Path :=
  s.paths.map fun path => Path.join root (Path.ofText path)

def sectionsRequired (project : Option Settings) : Bool := project.any requireNamespace

end Settings

end LexRules
