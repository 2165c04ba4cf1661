import LexRules.Fault
import LexRules.Path
import LexRules.Text.HiddenTable
import LexRules.Text.Ranges

/-! What is worth telling while files are looked for and read, and the filter that decides which of
it is told. -/

namespace LexRules

inductive Level
  | off
  | error
  | warn
  | info
  | debug
  | trace
  deriving DecidableEq

inductive Event
  | loadingSettings (path : Path)
  | noDirectory (dir : Path)
  | shallowFinished (dir : Path) (count : Nat)
  | deepFinished (dir : Path) (count faults : Nat)
  | visitedBefore (dir : Path)
  | skipping (dir : Path) (fault : Fault)
  | readingFile (path : Path)
  | enteringNamespace (name : Text) (line : Nat)
  deriving DecidableEq

namespace Level

def rank : Level → Nat
  | .off => 0
  | .error => 1
  | .warn => 2
  | .info => 3
  | .debug => 4
  | .trace => 5

def name : Level → String
  | .off => "OFF"
  | .error => "ERROR"
  | .warn => "WARN"
  | .info => "INFO"
  | .debug => "DEBUG"
  | .trace => "TRACE"

def all : List Level := [.off, .error, .warn, .info, .debug, .trace]

def ofText? (t : Text) : Option Level :=
  all.find? fun level => level.name.toList == t.map Char.toUpper

end Level

namespace Event

def level : Event → Level
  | .skipping .. => .warn
  | _ => .debug

def target : Event → String
  | .loadingSettings _ => "lexdef_core::config"
  | .readingFile _ | .enteringNamespace .. => "lexdef_core::definition"
  | _ => "lexdef_core::discovery"

def hexText (n : Nat) : Text :=
  if n < 16 then [Text.hexChar n] else hexText (n / 16) ++ [Text.hexChar (n % 16)]

def quotedChar (c : Char) : Text :=
  if c = '"' ∨ c = '\\' then ['\\', c]
  else if c = '\t' then ['\\', 't']
  else if c = '\n' then ['\\', 'n']
  else if c = '\r' then ['\\', 'r']
  else if c.toNat = 0 then ['\\', '0']
  else if Text.inRanges c.toNat HiddenTable.ranges then
    "\\u\x7b".toList ++ hexText c.toNat ++ ['\x7d']
  else [c]

def quotedName (t : Text) : Text := '"' :: t.flatMap quotedChar ++ ['"']

def message : Event → Text
  | .loadingSettings path => "loading config path=".toList ++ Text.decodeLossy path
  | .noDirectory dir => "discovery root is not a directory dir=".toList ++ Text.decodeLossy dir
  | .shallowFinished dir count =>
    "shallow discovery finished dir=".toList ++ Text.decodeLossy dir ++ " count=".toList ++
      Text.ofNat count
  | .deepFinished dir count faults =>
    "deep discovery finished dir=".toList ++ Text.decodeLossy dir ++ " count=".toList ++
      Text.ofNat count ++ " errors=".toList ++ Text.ofNat faults
  | .visitedBefore dir => "skipping directory already visited dir=".toList ++ Text.decodeLossy dir
  | .skipping dir fault =>
    "skipping unreadable directory dir=".toList ++ Text.decodeLossy dir ++ " error=".toList ++
      fault.message.toList
  | .readingFile path => "parsing definition file path=".toList ++ Text.decodeLossy path
  | .enteringNamespace name line =>
    "entering namespace namespace=".toList ++ quotedName name ++ " line=".toList ++ Text.ofNat line

def line (e : Event) : Text :=
  e.level.name.toList ++ [' '] ++ e.target.toList ++ ": ".toList ++ e.message

end Event

structure Directive where
  target : Text
  level : Level
  deriving DecidableEq

namespace Directive

/-- A level, a target, or a target and its level. A target alone lets everything through. -/
def ofText? (t : Text) : Option Directive :=
  match Text.splitOn '=' t with
  | [word] => some (match Level.ofText? word with
    | some level => ⟨[], level⟩
    | none => ⟨word, .trace⟩)
  | [target, level] => (Level.ofText? level).map fun level => ⟨target, level⟩
  | _ => none

def all? : List Text → Option (List Directive)
  | [] => some []
  | part :: rest => do return (← ofText? part) :: (← all? rest)

/-- The directives of a filter. An empty filter lets errors through. -/
def filter? (t : Text) : Option (List Directive) :=
  match (Text.splitOn ',' t).filter (· ≠ []) with
  | [] => some [⟨[], .error⟩]
  | parts => all? parts

def best (target : Text) : List Directive → Option Directive
  | [] => none
  | d :: rest =>
    match best target rest with
    | none => if d.target.isPrefixOf target then some d else none
    | some other =>
      if d.target.isPrefixOf target ∧ other.target.length < d.target.length then some d
      else some other

def passes (filter : List Directive) (e : Event) : Bool :=
  match best e.target.toList filter with
  | some d => e.level.rank ≤ d.level.rank
  | none => false

end Directive

end LexRules
