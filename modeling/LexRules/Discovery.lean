import LexRules.Event
import LexRules.Exclude
import LexRules.Extensions
import LexRules.FileTree
import LexRules.Settings

/-! Finding definition files. A shallow search looks at the entries of one directory; a deep one
goes on to the directories below it, nearest first, and expands each directory once. -/

namespace LexRules

structure Found where
  path : Path
  extension : Text
  deriving DecidableEq

structure Findings where
  found : List Found
  faults : List Fault
  notes : List Event
  deriving DecidableEq

namespace Findings

def empty : Findings := ⟨[], [], []⟩

def isComplete (d : Findings) : Bool := d.faults.isEmpty

def merge (d e : Findings) : Findings :=
  ⟨d.found ++ e.found, d.faults ++ e.faults, d.notes ++ e.notes⟩

def ofFault (f : Fault) : Findings := ⟨[], [f], []⟩

def ofNote (e : Event) : Findings := ⟨[], [], [e]⟩

end Findings

structure Finder where
  extensions : Extensions
  exclude : List Text
  deriving DecidableEq

namespace Finder

def empty : Finder := ⟨.empty, []⟩

def ofSettings (s : Settings) : Finder := ⟨Extensions.ofList s.extensions, s.exclude⟩

def ofProject : Option Settings → Finder
  | some s => ofSettings s
  | none => ⟨Extensions.ofList [Settings.defaultExtension], []⟩

def addExtensions (f : Finder) (extensions : List Text) : Finder :=
  { f with extensions := f.extensions.addAll extensions }

def addExclude (f : Finder) (patterns : List Text) : Finder :=
  { f with exclude := f.exclude ++ patterns }

def accept? (f : Finder) (path : Path) : Option Found :=
  (f.extensions.entryFor? path).map fun ext => ⟨path, ext⟩

end Finder

structure Search where
  tree : FileTree
  finder : Finder
  excludes : Path → Bool → Bool

inductive Visit
  | listed (dir : Path) (place : Nat) (names : List Name)
  | refused (dir : Path) (place : Nat) (cause : IoCause)
  /-- The directory was visited before under some other path. -/
  | repeated (dir : Path)
  /-- The path led nowhere any more. -/
  | lost (dir : Path) (cause : IoCause)
  deriving DecidableEq

def Path.entries (dir : Path) (names : List Name) : List Path := names.map (Path.join dir)

namespace Search

def filesOf (s : Search) (paths : List Path) : List Found :=
  paths.filterMap fun path =>
    if s.tree.isDirectory path || s.excludes path false then none else s.finder.accept? path

def directoriesOf (s : Search) (paths : List Path) : List Path :=
  paths.filter fun path => s.tree.isDirectory path && !s.excludes path true

/-- Visits the pending directories in turn and appends what they lead on to. The places in
`unvisited` are those not visited yet, and every listing uses one up. -/
def visits (s : Search) (unvisited : List Nat) : List Path → List Visit
  | [] => []
  | dir :: pending =>
    match s.tree.locate dir with
    | .error cause => .lost dir cause :: visits s unvisited pending
    | .ok place =>
      if h : place ∈ unvisited then
        have := List.length_erase_of_mem h
        have := List.length_pos_of_mem h
        match s.tree.namesAt place with
        | .error cause => .refused dir place cause :: visits s (unvisited.erase place) pending
        | .ok names =>
          .listed dir place names ::
            visits s (unvisited.erase place) (pending ++ s.directoriesOf (Path.entries dir names))
      else .repeated dir :: visits s unvisited pending
termination_by pending => (unvisited.length, pending.length)

def unlistable (dir : Path) (cause : IoCause) : Findings :=
  ⟨[], [.unreadable dir cause], [.skipping dir (.unreadable dir cause)]⟩

def gain (s : Search) : Visit → Findings
  | .listed dir _ names => ⟨s.filesOf (Path.entries dir names), [], []⟩
  | .refused dir _ cause | .lost dir cause => unlistable dir cause
  | .repeated dir => .ofNote (.visitedBefore dir)

def history (s : Search) (root : Path) : List Visit :=
  s.visits (List.range s.tree.nodes.size) [root]

def run (s : Search) (root : Path) : Findings :=
  (s.history root).foldr (fun visit d => (s.gain visit).merge d) .empty

def shallow (s : Search) (dir : Path) : Except Fault Findings :=
  match s.tree.names dir with
  | .error cause => .error (.unreadable dir cause)
  | .ok names =>
    let found := s.filesOf (Path.entries dir names)
    .ok ⟨found, [], [.shallowFinished dir found.length]⟩

def failure? (root : Path) : Visit → Option Fault
  | .refused dir _ cause | .lost dir cause =>
    if Path.same dir root then some (.unreadable dir cause) else none
  | _ => none

def deep (s : Search) (dir : Path) : Except Fault Findings :=
  match (s.history dir).findSome? (failure? dir) with
  | some fault => .error fault
  | none =>
    let d := s.run dir
    .ok (d.merge (.ofNote (.deepFinished dir d.found.length d.faults.length)))

end Search

namespace Finder

def search (f : Finder) (tree : FileTree) (dir : Path) : Except Fault Search :=
  (Exclusion.ofLines f.exclude).map fun patterns =>
    let excludes (path : Path) (isDirectory : Bool) : Bool :=
      Exclusion.excludes patterns (Exclusion.relativeTo dir path) isDirectory
    ⟨tree, f, excludes⟩

/-- The files among the entries of a directory. What is no directory has none. -/
def shallow (f : Finder) (tree : FileTree) (dir : Path) : Except Fault Findings :=
  if !tree.isDirectory dir then .ok (.ofNote (.noDirectory dir))
  else (f.search tree dir).bind fun s => s.shallow dir

def deep (f : Finder) (tree : FileTree) (dir : Path) : Except Fault Findings :=
  if !tree.isDirectory dir then .ok (.ofNote (.noDirectory dir))
  else (f.search tree dir).bind fun s => s.deep dir

def find (f : Finder) (tree : FileTree) (deep : Bool) (dir : Path) : Except Fault Findings :=
  if deep then f.deep tree dir else f.shallow tree dir

end Finder

end LexRules
