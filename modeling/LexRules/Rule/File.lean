import LexRules.Event
import LexRules.FileTree
import LexRules.Rule.Reader
import LexRules.Settings

/-! Definition files and settings files in a file tree. -/

namespace LexRules

def Opened.lines : Opened → List (Except IoCause Text)
  | .file content => Reader.linesOf content
  | .directory => [.error .isDirectory]

def Reader.openFile (tree : FileTree) (required : Bool) (path : Path) : Except Fault Reader :=
  match tree.openPath path with
  | .error cause => .error (.unreadable path cause)
  | .ok opened => .ok (.ofLines (some path) required opened.lines)

def Rule.ofFile (tree : FileTree) (required : Bool) (path : Path) : Except Fault (List Rule) :=
  match Reader.openFile tree required path with
  | .error fault => .error fault
  | .ok r => Rule.collect r.items

/-- What became of one file of many: the rules before the first fault, and that fault. -/
structure RuleFile where
  path : Path
  rules : List Rule
  fault : Option Fault
  notes : List Event
  deriving DecidableEq

namespace RuleFile

def isOk (p : RuleFile) : Bool := p.fault.isNone

def read (tree : FileTree) (required : Bool) (path : Path) : RuleFile :=
  match Reader.openFile tree required path with
  | .error fault => ⟨path, [], some fault, [.readingFile path]⟩
  | .ok r =>
    let (rules, fault) := Rule.untilFault r.items
    let opened := (Reader.openings required none 0 r.pending).map fun o =>
      Event.enteringNamespace o.1 o.2
    ⟨path, rules, fault, .readingFile path :: opened⟩

def readAll (tree : FileTree) (required : Bool) (paths : List Path) : List RuleFile :=
  paths.map (read tree required)

end RuleFile

namespace Settings

def file? (tree : FileTree) (root : Path) : Option Path :=
  (candidates.map fun name => Path.join root (Path.ofText name)).find? tree.isFile

def load (tree : FileTree) (root : Path) : Except Fault (Option Settings) :=
  match file? tree root with
  | none => .ok none
  | some path =>
    match tree.readText path with
    | .error cause => .error (.unreadable path cause)
    | .ok content => (parse content).map some

end Settings

end LexRules
