import LexRules.Binary64.Literal

/-! Values of a TOML document. -/

namespace LexRules.Toml

inductive Value
  | string (t : Text)
  | boolean (b : Bool)
  | integer (n : Int)
  /-- A float, and whether it was spelled by name (`inf`, `nan`). -/
  | float (x : Binary64) (named : Bool)
  | moment
  | array (items : List Value)
  | table (entries : List (Text × Value))

namespace Value

def fitsWord (n : Int) : Bool := -Int.pow 2 127 ≤ n && n < Int.pow 2 128

mutual

/-- Whether a value can be read at all: its integers fit a word and none of its floats overflows. -/
def isReadable : Value → Bool
  | .integer n => fitsWord n
  | .float x named => named || !x.isInfinite
  | .array items => areReadable items
  | .table entries => haveReadable entries
  | _ => true

def areReadable : List Value → Bool
  | [] => true
  | v :: rest => isReadable v && areReadable rest

def haveReadable : List (Text × Value) → Bool
  | [] => true
  | (_, v) :: rest => isReadable v && haveReadable rest

end

end Value

end LexRules.Toml
