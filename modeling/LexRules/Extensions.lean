import LexRules.Path
import LexRules.Text.Blank
import LexRules.Text.LowerCase

/-! Sets of file extensions, compared without regard to case. Entries are kept in lower case,
without leading dots, and in order, so that a set has one form. -/

namespace LexRules

structure Extensions where
  entries : List Text
  deriving DecidableEq

namespace Extensions

def empty : Extensions := ⟨[]⟩

def entryOf (spelled : Text) : Text :=
  Text.lowerCase ((Text.trim spelled).dropWhile (· == '.'))

def place (entry : Text) : List Text → List Text
  | [] => [entry]
  | e :: rest =>
    if entry = e then e :: rest
    else if entry < e then entry :: e :: rest
    else e :: place entry rest

def insert (set : Extensions) (spelled : Text) : Bool × Extensions :=
  let entry := entryOf spelled
  if entry = [] ∨ entry ∈ set.entries then (false, set) else (true, ⟨place entry set.entries⟩)

def add (set : Extensions) (spelled : Text) : Extensions := (set.insert spelled).2

def addAll (set : Extensions) (spelled : List Text) : Extensions := spelled.foldl add set

def ofList (spelled : List Text) : Extensions := empty.addAll spelled

/-- The entry that the extension of a path matches. An extension that is no UTF-8 matches none. -/
def entryFor? (set : Extensions) (path : Path) : Option Text :=
  ((Path.extension? path).bind Text.decodeUtf8).bind fun ext =>
    set.entries.find? fun entry => entry == Text.lowerCase ext

end Extensions

end LexRules
