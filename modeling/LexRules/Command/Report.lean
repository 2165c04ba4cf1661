import LexRules.Command
import LexRules.Command.Style
import LexRules.Discovery.Project
import LexRules.Rule.File
import LexRules.Token.Stream

/-! What each command prints, as a function of its settings and of what it reads. -/

namespace LexRules

structure Report where
  stdout : List Text
  stderr : List Text
  ok : Bool
  notes : List Event

structure Context where
  tree : FileTree
  root : Path
  colors : Bool

namespace Context

def errorLabel (c : Context) : Text := Style.red.paint c.colors "error:".toList ++ [' ']

/-- The settings of the project, which has the default ones without a settings file. -/
def settings (c : Context) : Except Fault Settings :=
  (Settings.load c.tree c.root).map fun s => s.getD Settings.default

def settingsNotes (c : Context) : List Event :=
  ((Settings.file? c.tree c.root).map Event.loadingSettings).toList

def shown (c : Context) (path : Path) : Text := Path.shownFrom c.root path

end Context

def faultLines (c : Context) (d : Findings) : List Text :=
  d.faults.map fun fault => c.errorLabel ++ fault.message.toList

def noFilesLine : Text := "No definition files found.".toList

namespace Report

def discover (c : Context) (deep : Bool) (extensions : List Text) (format : OutputFormat) :
    Except Fault Report := do
  let settings ← c.settings
  let finder : Finder :=
    if extensions = [] then .ofSettings settings
    else ⟨Extensions.ofList extensions, settings.exclude⟩
  let d := finder.findAll c.tree (deep || settings.deep) (settings.searchPaths c.root)
  let stdout := match format with
    | .json =>
      [Text.jsonArray (d.found.map fun f =>
        Text.jsonObject [("extension", Text.quoted f.extension),
          ("path", Text.quoted (c.shown f.path))])]
    | .text => if d.found = [] then [noFilesLine] else d.found.map fun f => c.shown f.path
  return ⟨stdout, faultLines c d, d.isComplete, c.settingsNotes ++ d.notes⟩

def optionalJson (t : Option Text) : Text := t.getD "null".toList

def ruleJson (r : Rule) : Text :=
  Text.jsonObject [("captures", Text.quoted r.captures), ("line", Text.ofNat r.line),
    ("namespace", optionalJson (r.space.map Text.quoted)), ("pattern", Text.quoted r.pattern),
    ("priority", Text.quoted r.priority)]

def boolJson (b : Bool) : Text := if b then "true".toList else "false".toList

def fileJson (c : Context) (p : RuleFile) : Text :=
  Text.jsonObject [("error", optionalJson (p.fault.map fun f => Text.quoted f.message.toList)),
    ("file", Text.quoted (c.shown p.path)),
    ("line", optionalJson ((p.fault.bind Fault.line?).map Text.ofNat)),
    ("ok", boolJson p.isOk),
    ("rules", Text.jsonArray (p.rules.map ruleJson))]

def column (n : Nat) : Text :=
  let digits := Text.ofNat n
  List.replicate (4 - digits.length) ' ' ++ digits

def ruleLine (c : Context) (r : Rule) : Text :=
  Text.joinWith [' '] ["  ".toList ++ Style.dimmed.paint c.colors (column r.line),
    r.space.getD ['-'], r.priority, r.pattern, r.captures]

def fileLines (c : Context) (p : RuleFile) : List Text :=
  let count := Text.ofNat p.rules.length
  let noun := if p.rules.length = 1 then " rule)".toList else " rules)".toList
  (Style.bold.paint c.colors (c.shown p.path) ++ " (".toList ++ count ++ noun) ::
    p.rules.map (ruleLine c)

def fileFault? (c : Context) (p : RuleFile) : Option Text :=
  p.fault.map fun f => c.errorLabel ++ c.shown p.path ++ ": ".toList ++ f.message.toList

def parsedText (c : Context) (files : List RuleFile) : List Text × List Text :=
  if files = [] then ([noFilesLine], [])
  else
    let lines := files.flatMap (fileLines c)
    let faults := files.filterMap (fileFault? c)
    let total := Text.ofNat files.length
    if faults = [] then
      (lines ++ [Style.green.paint c.colors "ok:".toList ++ " parsed ".toList ++ total ++
        " file(s)".toList], [])
    else
      (lines, faults ++ [Text.ofNat faults.length ++ " of ".toList ++ total ++
        " file(s) failed to parse".toList])

def parse (c : Context) (files : List Path) (deep requireNamespace : Bool)
    (format : OutputFormat) : Except Fault Report := do
  let settings ← c.settings
  let required := settings.requireNamespace || requireNamespace
  let d : Findings :=
    if files = [] then
      (Finder.ofSettings settings).findAll c.tree (deep || settings.deep)
        (settings.searchPaths c.root)
    else .empty
  let paths := if files = [] then d.found.map Found.path else files
  let parsed := RuleFile.readAll c.tree required paths
  let (stdout, stderr) := match format with
    | .json => ([Text.jsonArray (parsed.map (fileJson c))], [])
    | .text => parsedText c parsed
  return ⟨stdout, faultLines c d ++ stderr, d.isComplete && parsed.all RuleFile.isOk,
    c.settingsNotes ++ d.notes ++ parsed.flatMap RuleFile.notes⟩

/-- The scalar that a kind and a value ask for: text without a kind, null without either. -/
def scalarOf : Option Kind → Option Text → Except Fault Scalar
  | none, none => .ok .null
  | none, some t => .ok (.text t)
  | some kind, value => Scalar.ofPayload kind (value.getD [])

def encode (name : Text) (value : Option Text) (space : Text) (kind : Option Kind) :
    Except Fault Report := do
  let b ← Binding.make name space (← scalarOf kind value)
  return ⟨[b.token], [], true, []⟩

def bindingLine (c : Context) (b : Binding) : Text :=
  b.space ++ "::".toList ++ Style.bold.paint c.colors b.name ++ [' '] ++
    Style.dimmed.paint c.colors b.value.kind.tag ++ [' '] ++ b.value.payload

def failureLine (c : Context) (failure : Nat × Token.Failure) : Text :=
  c.errorLabel ++ "line ".toList ++ Text.ofNat failure.1 ++ ": ".toList ++
    failure.2.message.toList

def decode (c : Context) (token : Option Text) (stdin : Text.Bytes) (format : OutputFormat) :
    Report :=
  let lines := match token with
    | some t => [some t]
    | none => Token.streamLines stdin
  let results := Token.outcomes 1 lines
  let bindings := Token.bindings results
  let failures := Token.failures results
  let stdout := match format with
    | .json => [Text.jsonArray (bindings.map Binding.json)]
    | .text => bindings.map (bindingLine c)
  ⟨stdout, failures.map (failureLine c), failures.isEmpty, []⟩

def of (c : Context) (stdin : Text.Bytes) : Command → Except Fault Report
  | .discover deep extensions format => discover c deep extensions format
  | .parse files deep requireNamespace format => parse c files deep requireNamespace format
  | .encode name value space kind => encode name value space kind
  | .decode token format => .ok (decode c token stdin format)

end Report

end LexRules
