import LexRules.Binary64.Nearest

/-! The fewest decimal digits that read back as a given double, and of those the nearest. -/

namespace LexRules.Binary64

inductive Tie
  | up
  | even

/-- The decimal exponent of the first digit of the value of a magnitude above zero. The least
positive double has its first digit at `-324`, so the scale keeps at least six places of it. -/
def firstPlace (magnitude : Nat) : Int :=
  (Text.ofNat (scaled magnitude * Nat.pow 10 330 / Nat.pow 2 1074)).length - 331

def inUnits (magnitude : Nat) (place : Int) : Nat × Nat :=
  if 0 ≤ place then (scaled magnitude, Nat.pow 2 1074 * Nat.pow 10 place.toNat)
  else (scaled magnitude * Nat.pow 10 (-place).toNat, Nat.pow 2 1074)

/-- The nearest neighbour of the value on the grid of `10 ^ place` that reads back as it. -/
def onGrid? (tie : Tie) (magnitude : Nat) (place : Int) : Option Nat :=
  let (n, d) := inUnits magnitude place
  let low := n / d
  let reads (k : Nat) : Bool := ofDecimal k place == magnitude
  let upward :=
    if 2 * (n % d) < d then false
    else if d < 2 * (n % d) then true
    else match tie with
      | .up => true
      | .even => low % 2 == 1
  match reads low, reads (low + 1) with
  | true, true => some (if upward then low + 1 else low)
  | true, false => some low
  | false, true => some (low + 1)
  | false, false => none

def firstGrid? (tie : Tie) (magnitude : Nat) (place : Int) : Nat → Option (Nat × Int)
  | 0 => none
  | count + 1 =>
    match onGrid? tie magnitude place with
    | some k => some (k, place)
    | none => firstGrid? tie magnitude (place - 1) count

def dropZeros (coefficient : Nat) (exponent : Int) : Nat × Int :=
  if coefficient = 0 then (0, 0)
  else if coefficient % 10 = 0 then dropZeros (coefficient / 10) (exponent + 1)
  else (coefficient, exponent)
termination_by coefficient

/-- The shortest decimal `(c, e)`, standing for `c * 10 ^ e`, that reads back as a magnitude.
Seventeen digits are enough for every finite double; the exact expansion stands behind them. -/
def shortest (tie : Tie) (magnitude : Nat) : Nat × Int :=
  if magnitude = 0 then (0, 0)
  else
    match firstGrid? tie magnitude (firstPlace magnitude) 17 with
    | some (k, place) => dropZeros k place
    | none => (scaled magnitude * Nat.pow 5 1074, -1074)

end LexRules.Binary64
