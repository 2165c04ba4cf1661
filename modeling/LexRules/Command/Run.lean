import LexRules.Command.Arguments
import LexRules.Command.Report

/-! Running the program. A run is a function of what it is given: arguments, files, standard input
and the settings of the terminal; what it prints and its exit code are its value. -/

namespace LexRules

structure Environment where
  args : List Text
  tree : FileTree
  /-- The absolute path of the current directory. -/
  home : Path
  stdin : Text.Bytes
  noColor : Bool
  logFilter : Option Text

inductive Fatal
  | usage
  | fault (f : Fault)
  deriving DecidableEq

structure Outcome where
  code : Nat
  stdout : Text
  stderr : Text
  fatal : Option Fatal
  log : List Text
  deriving DecidableEq

namespace Environment

/-- The log filter: the one that is set, if it can be read; otherwise warnings, or everything from
this program when more is asked for. -/
def filter (e : Environment) (verbose : Bool) : List Directive :=
  match e.logFilter.bind Directive.filter? with
  | some filter => filter
  | none => if verbose then [⟨"lexdef_core".toList, .debug⟩] else [⟨[], .warn⟩]

def log (e : Environment) (verbose : Bool) (notes : List Event) : List Text :=
  (notes.filter (Directive.passes (e.filter verbose))).map Event.line

def printed (lines : List Text) : Text := lines.flatMap fun line => line ++ ['\n']

def versionLine : Text := "lexdef_cli 0.1.0".toList

def noCommandLine : Text := "No subcommand specified. Run `lexdef --help` for usage.".toList

def helpLines : List Text :=
  ["lexdef [OPTIONS] [COMMAND]".toList,
   "  discover [--deep] [--ext EXT] [--format text|json]".toList,
   "  parse [FILES] [--deep] [--require-namespace] [--format text|json]".toList,
   "  encode NAME [VALUE] [--namespace NAMESPACE] [--kind null|long|double|string]".toList,
   "  decode [TOKEN] [--format text|json]".toList,
   "Options of every command: --path PATH, --verbose, --no-color, --help".toList]

def notesBeforeFault (c : Context) : Command → List Event
  | .discover .. | .parse .. => c.settingsNotes
  | .encode .. | .decode .. => []

/-- Runs an invocation. The exit code is 0 when nothing is wrong, 1 when something was found wrong
on the way or no command was given, and 2 when the command could not be run. -/
def runInvocation (e : Environment) (i : Invocation) : Outcome :=
  let c : Context := ⟨e.tree, i.root.getD e.home, !i.noColor && !e.noColor⟩
  match i.command with
  | none => ⟨1, [], printed [noCommandLine], none, []⟩
  | some command =>
    match Report.of c e.stdin command with
    | .ok r =>
      ⟨if r.ok then 0 else 1, printed r.stdout, printed r.stderr, none, e.log i.verbose r.notes⟩
    | .error fault =>
      ⟨2, [], [], some (.fault fault), e.log i.verbose (notesBeforeFault c command)⟩

def run (e : Environment) : Outcome :=
  match Arguments.read e.args with
  | .ok i => e.runInvocation i
  | .error .usage => ⟨2, [], [], some .usage, []⟩
  | .error .help => ⟨0, printed helpLines, [], none, []⟩
  | .error .version => ⟨0, printed [versionLine], [], none, []⟩

end Environment

end LexRules
