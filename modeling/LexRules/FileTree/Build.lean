import LexRules.FileTree

/-! Putting a file tree together, path by path. Directories on the way are made as they are
needed, and links on the way are followed. -/

namespace LexRules.FileTree

/-- A tree with nothing in it, on a system that follows forty links inside one another. -/
def bare : FileTree := ⟨#[.directory 0 [] .full], 0, 40⟩

def addAt (tree : FileTree) (directory : Nat) (name : Name) (node : Node) : FileTree :=
  match tree.nodes[directory]? with
  | some (.directory parent entries access) =>
    let entries := entries ++ [(name, tree.nodes.size)]
    { tree with
      nodes := (tree.nodes.setIfInBounds directory (.directory parent entries access)).push node }
  | _ => tree

def enter (tree : FileTree) (here : Nat) (name : Name) : FileTree × Nat :=
  match tree.walk here [name] with
  | .ok id => (tree, id)
  | .error _ => (tree.addAt here name (.directory here [] .full), tree.nodes.size)

def enterAll (tree : FileTree) (here : Nat) (names : List Name) : FileTree × Nat :=
  names.foldl (fun acc name => acc.1.enter acc.2 name) (tree, here)

def makeDirectory (tree : FileTree) (path : Path) : FileTree :=
  (tree.enterAll (origin tree.current path) (steps path)).1

def enterParent (tree : FileTree) (path : Path) : FileTree × Nat × Name :=
  let names := steps path
  let (tree, id) := tree.enterAll (origin tree.current path) names.dropLast
  (tree, id, names.getLastD [])

def writeFile (tree : FileTree) (path : Path) (content : Text.Bytes) : FileTree :=
  let (tree, here, name) := tree.enterParent path
  match tree.walk here [name] with
  | .ok id => { tree with nodes := tree.nodes.setIfInBounds id (.file content false) }
  | .error _ => tree.addAt here name (.file content false)

def makeLink (tree : FileTree) (path target : Path) : FileTree :=
  let (tree, here, name) := tree.enterParent path
  tree.addAt here name (.link target)

def makeSpecial (tree : FileTree) (path : Path) (content : Except IoCause Text.Bytes) : FileTree :=
  let (tree, here, name) := tree.enterParent path
  tree.addAt here name (.special content)

def lock (tree : FileTree) (path : Path) : FileTree :=
  match tree.locate path with
  | .error _ => tree
  | .ok id =>
    let locked := match tree.nodes[id]? with
      | some (.file content _) => Node.file content true
      | some (.directory parent entries _) => .directory parent entries .shut
      | some (.link target) => .link target
      | some (.special _) => .special (.error .denied)
      | none => .file [] true
    { tree with nodes := tree.nodes.setIfInBounds id locked }

def remove (tree : FileTree) (path : Path) : FileTree :=
  let (tree, here, name) := tree.enterParent path
  match tree.nodes[here]? with
  | some (.directory parent entries access) =>
    let entries := entries.filter fun e => e.1 ≠ name
    { tree with nodes := tree.nodes.setIfInBounds here (.directory parent entries access) }
  | _ => tree

def startingAt (path : Path) : FileTree :=
  let (tree, id) := bare.enterAll 0 (steps path)
  { tree with current := id }

end LexRules.FileTree
