import LexRules.Fault

/-! Paths as they are spelled, and the components that they stand for. Nothing here looks at files:
joining, comparing and shortening paths work on their bytes alone, which need not be UTF-8. -/

namespace LexRules

abbrev Path := Text.Bytes

abbrev Name := Text.Bytes

/-- A part of a path between slashes. Empty parts, and `.` after the first, are none. -/
inductive Component
  | root
  | here
  | parent
  | normal (name : Name)
  deriving DecidableEq

namespace Component

def rank : Component → Nat
  | .root => 0
  | .here => 1
  | .parent => 2
  | .normal _ => 3

def lt : Component → Component → Bool
  | .normal a, .normal b => decide (a < b)
  | a, b => decide (a.rank < b.rank)

end Component

namespace Path

def slash : UInt8 := 0x2F

def dot : UInt8 := 0x2E

def ofText (t : Text) : Path := Text.encodeUtf8 t

def of (s : String) : Path := ofText s.toList

def isAbsolute (path : Path) : Bool := path.head? == some slash

def segments (path : Path) : List Name := Text.splitOn slash path

def isVoid (s : Name) : Bool := s == [] || s == [dot]

def component? (s : Name) : Option Component :=
  if isVoid s then none
  else if s = [dot, dot] then some .parent
  else some (.normal s)

def components (path : Path) : List Component :=
  match segments path with
  | [] => []
  | first :: rest =>
    if isAbsolute path then .root :: rest.filterMap component?
    else if first = [dot] then .here :: rest.filterMap component?
    else (first :: rest).filterMap component?

def precedes (p q : Path) : Bool := List.lex (components p) (components q) Component.lt

/-- Paths that differ only in void segments are the same. -/
def same (p q : Path) : Bool := components p == components q

/-- The path of `fragment` as seen from `base`. An absolute fragment stands alone; otherwise a slash
is put between, unless there is one or `base` is empty. -/
def join (base fragment : Path) : Path :=
  if isAbsolute fragment then fragment
  else if base = [] ∨ base.getLast? = some slash then base ++ fragment
  else base ++ slash :: fragment

def ofFragments (fragments : List Text) : Except Fault Path :=
  if fragments = [] then .error (.badArgument .noFragments)
  else .ok ((fragments.map ofText).foldl join [])

def fileName? (path : Path) : Option Name :=
  match (components path).getLast? with
  | some (.normal name) => some name
  | _ => none

def splitLastDot? : Name → Option (Bool × Name)
  | [] => none
  | b :: rest =>
    match splitLastDot? rest with
    | some (_, ext) => some (true, ext)
    | none => if b = dot then some (false, rest) else none

/-- The part of the file name behind its last dot, unless that dot is its first character. -/
def extension? (path : Path) : Option Name :=
  match (fileName? path).bind splitLastDot? with
  | some (true, ext) => some ext
  | _ => none

def dropComponents : Nat → List Name → List Name
  | 0, segments => segments
  | _ + 1, [] => []
  | n + 1, s :: rest => if isVoid s then dropComponents (n + 1) rest else dropComponents n rest

def trimVoid (segments : List Name) : List Name :=
  ((segments.dropWhile isVoid).reverse.dropWhile isVoid).reverse

/-- The path below `root`, if `root` is above it or the path itself. The empty root is above every
path and takes nothing from it. -/
def below? (root path : Path) : Option Path :=
  let count := (components root).length
  if root = [] then some path
  else if (components root).isPrefixOf (components path) then
    let segments := segments path
    let left :=
      if isAbsolute path || segments.head? == some [dot] then
        dropComponents (count - 1) (segments.drop 1)
      else dropComponents count segments
    some (Text.joinWith [slash] (trimVoid left))
  else none

def seenFrom (root path : Path) : Path := (below? root path).getD path

def shownFrom (root path : Path) : Text := Text.decodeLossy (seenFrom root path)

end Path

end LexRules
