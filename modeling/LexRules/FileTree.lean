import LexRules.Path
import LexRules.Text.Utf8

/-! A file system: files, directories, symbolic links and whatever else a directory can hold in one
table, each known by its place there. A directory has one place however it is reached, so the place
is its identity. -/

namespace LexRules

/-- What may be done with a directory: listing the names in it, and looking a name up in it. The
system grants either without the other. -/
structure Access where
  list : Bool
  search : Bool
  deriving DecidableEq

namespace Access

def full : Access := ⟨true, true⟩

def shut : Access := ⟨false, false⟩

end Access

inductive Node
  | file (content : Text.Bytes) (locked : Bool)
  /-- Entries come in the order in which the directory lists them. -/
  | directory (parent : Nat) (entries : List (Name × Nat)) (access : Access)
  | link (target : Path)
  /-- A pipe, a socket or a device, with what reading it gives. -/
  | special (content : Except IoCause Text.Bytes)

structure FileTree where
  /-- The first node is the root directory. -/
  nodes : Array Node
  current : Nat
  /-- How many links may be followed inside one another. -/
  linkLimit : Nat

inductive Opened
  | file (content : Text.Bytes)
  | directory

namespace FileTree

/-- The steps of a path. An empty step at the end asks for a directory. -/
def steps (path : Path) : List Name :=
  (Path.segments path).filter (· ≠ []) ++ if path.getLast? = some Path.slash then [[]] else []

def origin (directory : Nat) (path : Path) : Nat := if Path.isAbsolute path then 0 else directory

def entry? (entries : List (Name × Nat)) (name : Name) : Option Nat :=
  (entries.find? fun e => e.1 == name).map Prod.snd

/-- Where a step leads from a node. Every name is looked up in a directory, which must grant that. A
link leads where its target does; at most `depth` links are followed inside one another. -/
def step (tree : FileTree) : (depth : Nat) → Nat → Name → Except IoCause Nat
  | depth, here, name =>
    match tree.nodes[here]? with
    | some (.directory parent entries access) =>
      if name = [] then .ok here
      else if !access.search then .error .denied
      else if name = [Path.dot] then .ok here
      else if name = [Path.dot, Path.dot] then .ok parent
      else match entry? entries name with
        | none => .error .notFound
        | some id =>
          match tree.nodes[id]?, depth with
          | some (.link _), 0 => .error .tooManyLinks
          | some (.link target), depth + 1 =>
            (steps target).foldlM (step tree depth) (origin here target)
          | _, _ => .ok id
    | _ => .error .notDirectory

def walk (tree : FileTree) (here : Nat) (names : List Name) : Except IoCause Nat :=
  names.foldlM (tree.step tree.linkLimit) here

def locate (tree : FileTree) (path : Path) : Except IoCause Nat :=
  if path = [] then .error .notFound else tree.walk (origin tree.current path) (steps path)

def node? (tree : FileTree) (path : Path) : Option Node :=
  match tree.locate path with
  | .ok id => tree.nodes[id]?
  | .error _ => none

def isDirectory (tree : FileTree) (path : Path) : Bool :=
  match tree.node? path with
  | some (.directory ..) => true
  | _ => false

def isFile (tree : FileTree) (path : Path) : Bool :=
  match tree.node? path with
  | some (.file ..) => true
  | _ => false

def namesAt (tree : FileTree) (id : Nat) : Except IoCause (List Name) :=
  match tree.nodes[id]? with
  | some (.directory _ entries access) =>
    if access.list then .ok (entries.map Prod.fst) else .error .denied
  | _ => .error .notDirectory

def names (tree : FileTree) (dir : Path) : Except IoCause (List Name) :=
  (tree.locate dir).bind tree.namesAt

def openPath (tree : FileTree) (path : Path) : Except IoCause Opened :=
  match tree.locate path with
  | .error cause => .error cause
  | .ok id =>
    match tree.nodes[id]? with
    | some (.file content locked) => if locked then .error .denied else .ok (.file content)
    | some (.directory _ _ access) => if access.list then .ok .directory else .error .denied
    | some (.special content) => content.map .file
    | _ => .error .notFound

def readText (tree : FileTree) (path : Path) : Except IoCause Text :=
  match tree.openPath path with
  | .error cause => .error cause
  | .ok .directory => .error .isDirectory
  | .ok (.file content) =>
    match Text.decodeUtf8 content with
    | some t => .ok t
    | none => .error .notUtf8

end FileTree

end LexRules
