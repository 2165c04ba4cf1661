import LexRules.Command.Run
import LexRules.FileTree.Build

/-! The program `lexdef`. It copies the files that a command may look at into a tree, runs the
command on the tree, and prints what the run gives. -/

namespace LexRules.Program

structure Copy where
  tree : FileTree
  seen : List String
  /-- Whether the command opens what it finds. Opening a pipe can wait for its writer. -/
  opens : Bool

def nowhere : Path := Path.of "/\x00"

def realPath? (path : String) : IO (Option String) := do
  match ← (IO.FS.realPath path).toBaseIO with
  | .ok real => return some real.toString
  | .error _ => return none

def copyLink (c : Copy) (path : String) : IO (Copy × Option String) := do
  let real ← realPath? path
  if real = some path ∨ path ∈ c.seen then return (c, real)
  let target := (real.map Path.of).getD nowhere
  return ({ c with tree := c.tree.makeLink (Path.of path) target, seen := path :: c.seen }, real)

partial def copyAll (c : Copy) (real : String) : IO Copy := do
  if real ∈ c.seen then return c
  let mut c := { c with seen := real :: c.seen }
  let path ← IO.FS.realPath real
  if ← path.isDir then
    c := { c with tree := c.tree.makeDirectory (Path.of real) }
    match ← path.readDir.toBaseIO with
    | .error _ => return { c with tree := c.tree.lock (Path.of real) }
    | .ok entries =>
      for e in entries do
        let (next, target) ← copyLink c e.path.toString
        c ← match target with
          | some target => copyAll next target
          | none => pure next
      return c
  else
    let isFile := (← path.metadata).type matches .file
    if !isFile && !c.opens then
      return { c with tree := c.tree.makeSpecial (Path.of real) (.error .noDevice) }
    match ← (IO.FS.readBinFile path).toBaseIO with
    | .ok bytes =>
      let content := bytes.toList
      if isFile then return { c with tree := c.tree.writeFile (Path.of real) content }
      else return { c with tree := c.tree.makeSpecial (Path.of real) (.ok content) }
    | .error _ =>
      if isFile then
        return { c with tree := (c.tree.writeFile (Path.of real) []).lock (Path.of real) }
      else return { c with tree := c.tree.makeSpecial (Path.of real) (.error .noDevice) }

def copyPath (c : Copy) (home : String) (path : Path) : IO Copy := do
  let mut c := c
  let mut here := if Path.isAbsolute path then "/" else home
  for name in (FileTree.steps path).filter (· ≠ []) do
    let joined := String.ofList (Text.decodeLossy (Path.join (Path.of here) name))
    let (next, real) ←
      if name = [Path.dot] ∨ name = [Path.dot, Path.dot] then pure (c, ← realPath? joined)
      else copyLink c joined
    c := next
    match real with
    | some real => here := real
    | none => return c
  copyAll c here

def givenFiles : Option Command → List Path
  | some (.parse files _ _ _) => files
  | _ => []

def copyFor (c : Copy) (home : String) (i : Invocation) : IO Copy := do
  let root := i.root.getD (Path.of home)
  let mut c := c
  for candidate in Settings.candidates do
    c ← copyPath c home (Path.join root (Path.ofText candidate))
  let settings := match Settings.load c.tree root with
    | .ok (some settings) => settings
    | _ => Settings.default
  for path in settings.searchPaths root ++ givenFiles i.command do
    c ← copyPath c home path
  return c

/-- The tree that an invocation runs on. Only commands that look at files need one. -/
def treeFor (home : String) (args : List Text) : IO FileTree := do
  let start := FileTree.startingAt (Path.of home)
  match Arguments.read args with
  | .ok i =>
    match i.command with
    | some (.discover ..) | some (.parse ..) =>
      return (← copyFor ⟨start, [], i.command matches some (.parse ..)⟩ home i).tree
    | _ => return start
  | .error _ => return start

def stdinFor (args : List Text) : IO Text.Bytes := do
  match Arguments.read args with
  | .ok ⟨some (.decode none _), _, _, _⟩ => return (← (← IO.getStdin).readBinToEnd).toList
  | _ => return []

def fatalMessage : Fatal → String
  | .usage => "error: these arguments make no command; see lexdef --help"
  | .fault f =>
    "Error: " ++ f.category.code ++ "\n  " ++ f.message ++
      (f.help?.map fun help => "\n  help: " ++ help).getD ""

end LexRules.Program

open LexRules LexRules.Program in
def main (arguments : List String) : IO UInt32 := do
  let home := (← IO.currentDir).toString
  let args := arguments.map String.toList
  let environment : Environment :=
    { args := args
      tree := ← treeFor home args
      home := Path.of home
      stdin := ← stdinFor args
      noColor := (← IO.getEnv "NO_COLOR").isSome
      logFilter := (← IO.getEnv "RUST_LOG").map String.toList }
  let outcome := environment.run
  let stderr ← IO.getStderr
  for line in outcome.log do
    stderr.putStrLn (String.ofList line)
  (← IO.getStdout).putStr (String.ofList outcome.stdout)
  stderr.putStr (String.ofList outcome.stderr)
  if let some fatal := outcome.fatal then
    stderr.putStrLn (fatalMessage fatal)
  return UInt32.ofNat outcome.code
