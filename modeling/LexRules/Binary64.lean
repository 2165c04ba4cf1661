/-! Double-precision numbers as their 64 bits. The bits below the sign bit, read as a number, are
the magnitude: it counts the non-negative doubles from zero upward, so neighbours differ by one. -/

namespace LexRules

structure Binary64 where
  bits : UInt64
  deriving DecidableEq

namespace Binary64

def isNegative (x : Binary64) : Bool := Nat.pow 2 63 ≤ x.bits.toNat

def magnitude (x : Binary64) : Nat := x.bits.toNat % Nat.pow 2 63

def infinity : Nat := 2047 * Nat.pow 2 52

def isNaN (x : Binary64) : Bool := infinity < x.magnitude

def isInfinite (x : Binary64) : Bool := x.magnitude == infinity

def isFinite (x : Binary64) : Bool := x.magnitude < infinity

def ofMagnitude (negative : Bool) (magnitude : Nat) : Binary64 :=
  ⟨UInt64.ofNat (magnitude % Nat.pow 2 63 + if negative then Nat.pow 2 63 else 0)⟩

def quietNaN : Nat := infinity + Nat.pow 2 51

/-- The value of a magnitude as a multiple of the least positive double, `2 ^ -1074`. At infinity
the scale goes on as if the exponent range had no end. -/
def scaled (magnitude : Nat) : Nat :=
  let exponent := magnitude / Nat.pow 2 52
  let fraction := magnitude % Nat.pow 2 52
  if exponent = 0 then fraction else (Nat.pow 2 52 + fraction) * Nat.pow 2 (exponent - 1)

/-- Equality of values: the two zeros are one number and a NaN is none. -/
def sameNumber (x y : Binary64) : Bool :=
  !x.isNaN && !y.isNaN && (x.bits == y.bits || x.magnitude == 0 && y.magnitude == 0)

def ordinal (x : Binary64) : UInt64 :=
  if x.isNegative then ~~~x.bits else x.bits ||| 0x8000000000000000

/-- The steps from `y` to `x`, counted in a word of 64 bits that wraps around. -/
def steps (x y : Binary64) : Int64 := (x.ordinal - y.ordinal).toInt64

def tolerance : Nat := 2

def isNear (x y : Binary64) : Bool :=
  sameNumber x y || (steps x y).toInt.natAbs ≤ tolerance

end Binary64

end LexRules
