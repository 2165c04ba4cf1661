import LexRules.Binary64.Shortest

/-! Doubles as text: the layouts in which their shortest digits are written, and the grammar of the
literals that are read. -/

namespace LexRules.Binary64

/-- How the shortest digits of a finite double are laid out. The first digit's decimal exponent
decides between positional and scientific form. -/
structure Layout where
  least : Int
  greatest : Int
  plusSign : Bool
  tie : Tie

/-- Positional form with digits on both sides of the point. The first digit of `digits` stands at
the decimal exponent `first`. -/
def positional (digits : Text) (first : Int) : Text :=
  if first < 0 then
    ['0', '.'] ++ List.replicate (-first - 1).toNat '0' ++ digits
  else
    let whole := first.toNat + 1
    let padded := digits ++ List.replicate (whole + 1 - digits.length) '0'
    padded.take whole ++ '.' :: padded.drop whole

def scientific (layout : Layout) (digits : Text) (first : Int) : Text :=
  digits.take 1 ++ (if digits.length ≤ 1 then [] else '.' :: digits.drop 1) ++
    'e' :: (if layout.plusSign && decide (0 ≤ first) then ['+'] else []) ++ Text.ofInt first

def Layout.magnitudeText (layout : Layout) (magnitude : Nat) : Text :=
  let (coefficient, exponent) := shortest layout.tie magnitude
  let digits := Text.ofNat coefficient
  let first := exponent + digits.length - 1
  if layout.least ≤ first ∧ first ≤ layout.greatest then positional digits first
  else scientific layout digits first

def Layout.finiteText (layout : Layout) (x : Binary64) : Text :=
  (if x.isNegative then ['-'] else []) ++ layout.magnitudeText x.magnitude

/-- The name of a double that is not finite; a NaN shows no sign. -/
def specialName (x : Binary64) : Text :=
  if x.isNaN then "NaN".toList else if x.isNegative then "-inf".toList else "inf".toList

def splitSign : Text → Bool × Text
  | '-' :: rest => (true, rest)
  | '+' :: rest => (false, rest)
  | rest => (false, rest)

def lowerAscii (c : Char) : Char := if 'A' ≤ c ∧ c ≤ 'Z' then Char.ofNat (c.toNat + 32) else c

/-- The exponent part of a literal, which must be all that is left: nothing, or `e` and an integer
with an optional sign. -/
def readExponent? : Text → Option Int
  | [] => some 0
  | c :: rest =>
    if c = 'e' ∨ c = 'E' then
      let (negative, digits) := splitSign rest
      if digits ≠ [] ∧ digits.all Text.isDigit then
        some (if negative then -(Text.digitsValue digits : Int) else Text.digitsValue digits)
      else none
    else none

def splitFraction : Text → Text × Text
  | '.' :: rest => (rest.takeWhile Text.isDigit, rest.dropWhile Text.isDigit)
  | rest => ([], rest)

def readNumber? (t : Text) : Option Nat :=
  let whole := t.takeWhile Text.isDigit
  let (fraction, rest) := splitFraction (t.dropWhile Text.isDigit)
  if whole = [] ∧ fraction = [] then none
  else (readExponent? rest).map fun exponent =>
    ofDecimal (Text.digitsValue (whole ++ fraction)) (exponent - fraction.length)

def readMagnitude? (t : Text) : Option Nat :=
  let name := t.map lowerAscii
  if name = "nan".toList then some quietNaN
  else if name = "inf".toList ∨ name = "infinity".toList then some infinity
  else readNumber? t

def ofLiteral? (t : Text) : Option Binary64 :=
  let (negative, rest) := splitSign t
  (readMagnitude? rest).map (ofMagnitude negative)

end LexRules.Binary64
