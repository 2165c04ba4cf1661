import LexRules.Text.Utf8

/-! Lines of texts and of bytes. A line ends at a line feed, and so may the last one or not; a
carriage return belongs to the line end only directly before a line feed. -/

namespace LexRules.Text

/-- The pieces that `stop` ends, each with whether it was ended; only the last may not be, and then
it is not empty. -/
def pieces {α : Type} [DecidableEq α] (stop : α) : List α → List (List α × Bool)
  | [] => []
  | c :: rest =>
    if c = stop then ([], true) :: pieces stop rest
    else match pieces stop rest with
      | [] => [([c], false)]
      | (piece, ended) :: more => (c :: piece, ended) :: more

/-- A piece as a line, without the carriage return of its line end. -/
def lineOf (piece : Text) (ended : Bool) : Text := if ended then dropFinal '\r' piece else piece

def lines (t : Text) : List Text := (pieces '\n' t).map fun p => lineOf p.1 p.2

def byteLine? (piece : Bytes) (ended : Bool) : Option Text :=
  (decodeUtf8 piece).map fun t => lineOf t ended

def byteLines (bytes : Bytes) : List (Option Text) :=
  (pieces 0x0A bytes).map fun p => byteLine? p.1 p.2

end LexRules.Text
