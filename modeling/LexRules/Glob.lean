import LexRules.Fault
import LexRules.Text.Utf8

/-! Glob patterns over bytes, and which bytes they match. A piece is read as what it may leave over
of the bytes before it. -/

namespace LexRules.Glob

inductive Piece
  | literal (c : Char)
  /-- Any byte but a slash. -/
  | one
  /-- Any bytes but slashes. -/
  | many
  /-- Any directories, or none, at the start. -/
  | leading
  /-- A slash and anything. -/
  | trailing
  /-- A slash, or any directories between two slashes. -/
  | between
  | oneOf (negated : Bool) (ranges : List (Char × Char))
  | choice (alternatives : List (List Piece))

abbrev Pattern := List Piece

def slash : UInt8 := 0x2F

/-- The ranges of bytes that a range of characters stands for: the bytes of both ends one by one,
but for the last of the first end and the first of the last end, which span a range. -/
def byteRanges (r : Char × Char) : List (UInt8 × UInt8) :=
  let first := Text.encodeUtf8 [r.1]
  let last := Text.encodeUtf8 [r.2]
  let single (b : UInt8) : UInt8 × UInt8 := (b, b)
  if r.1 = r.2 then first.map single
  else
    first.dropLast.map single ++ (first.getLastD 0, last.headD 0) :: (last.drop 1).map single

def inClass (negated : Bool) (ranges : List (Char × Char)) (b : UInt8) : Bool :=
  let inside := (ranges.flatMap byteRanges).any fun r => r.1 ≤ b && b ≤ r.2
  inside != negated

def behindSlashes : Text.Bytes → List Text.Bytes
  | [] => []
  | b :: rest => if b = slash then rest :: behindSlashes rest else behindSlashes rest

def dropNames : Text.Bytes → List Text.Bytes
  | [] => [[]]
  | b :: rest => (b :: rest) :: if b = slash then [] else dropNames rest

def dropAny : Text.Bytes → List Text.Bytes
  | [] => [[]]
  | b :: rest => (b :: rest) :: dropAny rest

mutual

def Piece.isVoid : Piece → Bool
  | .choice alternatives => areVoid alternatives
  | _ => false

def allVoid : List Piece → Bool
  | [] => true
  | p :: rest => p.isVoid && allVoid rest

def areVoid : List (List Piece) → Bool
  | [] => true
  | g :: rest => allVoid g && areVoid rest

end

mutual

def Piece.rests : Piece → Text.Bytes → List Text.Bytes
  | .literal c, s =>
    let lead := Text.encodeUtf8 [c]
    if lead.isPrefixOf s then [s.drop lead.length] else []
  | .one, b :: s => if b = slash then [] else [s]
  | .one, [] => []
  | .many, s => dropNames s
  | .leading, s => s :: behindSlashes s
  | .trailing, b :: s => if b = slash then dropAny s else []
  | .trailing, [] => []
  | .between, b :: s => if b = slash then s :: behindSlashes s else []
  | .between, [] => []
  | .oneOf negated ranges, b :: s => if inClass negated ranges b then [s] else []
  | .oneOf _ _, [] => []
  | .choice alternatives, s => if areVoid alternatives then [s] else anyRests alternatives s

def allRests : List Piece → List Text.Bytes → List Text.Bytes
  | [], starts => starts
  | p :: rest, starts => allRests rest (starts.flatMap fun s => p.rests s).eraseDups

def anyRests : List (List Piece) → Text.Bytes → List Text.Bytes
  | [], _ => []
  | g :: rest, s => (if allVoid g then [] else allRests g [s]) ++ anyRests rest s

end

/-- Whether a glob matches all of some bytes. Directories alone match everything. -/
def matchesBytes (glob : Pattern) (s : Text.Bytes) : Bool :=
  match glob with
  | [.leading] => true
  | _ => (allRests glob [s]).any List.isEmpty

end LexRules.Glob
