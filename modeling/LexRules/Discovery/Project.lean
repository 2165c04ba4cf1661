import LexRules.Discovery

/-! Finding the definition files of a whole project: every search path is searched by itself, and
what they give is put in order, each file once. -/

namespace LexRules

namespace Found

def same (f g : Found) : Bool := Path.same f.path g.path && f.extension == g.extension

def dropRepeatsFrom (last : Found) : List Found → List Found
  | [] => [last]
  | next :: rest =>
    if last.same next then dropRepeatsFrom last rest else last :: dropRepeatsFrom next rest

def dropRepeats : List Found → List Found
  | [] => []
  | first :: rest => dropRepeatsFrom first rest

def arrange (found : List Found) : List Found :=
  dropRepeats (found.mergeSort fun f g => !Path.precedes g.path f.path)

end Found

namespace Finder

/-- What one search path gives. A fault is one of the findings, so that it does not keep other
paths from being searched. -/
def findOn (f : Finder) (tree : FileTree) (deep : Bool) (path : Path) : Findings :=
  match f.find tree deep path with
  | .ok d => d
  | .error fault => .ofFault fault

def findAll (f : Finder) (tree : FileTree) (deep : Bool) (paths : List Path) : Findings :=
  let all := (paths.map (f.findOn tree deep)).foldl Findings.merge .empty
  { all with found := Found.arrange all.found }

end Finder

end LexRules
