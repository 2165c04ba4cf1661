import LexRules.Binary64
import LexRules.Text.Digits

/-! The double nearest to a fraction, exactly: a tie goes to the even magnitude, and what lies
beyond the last finite double becomes infinite. -/

namespace LexRules.Binary64

def floorMagnitude (t : Nat) : Nat :=
  if t < Nat.pow 2 53 then t
  else
    let shift := t.log2 - 52
    shift * Nat.pow 2 52 + t / Nat.pow 2 shift

def nearest (n d : Nat) : Nat :=
  let low := floorMagnitude (n * Nat.pow 2 1074 / d)
  let middle := (scaled low + scaled (low + 1)) * d
  let twice := 2 * (n * Nat.pow 2 1074)
  let rounded :=
    if twice < middle then low
    else if middle < twice then low + 1
    else low + low % 2
  min rounded infinity

/-- The magnitude nearest to `coefficient * 10 ^ exponent`. Numbers far outside the range of
doubles are settled by the place of their first digit alone. -/
def ofDecimal (coefficient : Nat) (exponent : Int) : Nat :=
  let place := (Text.ofNat coefficient).length + exponent
  if coefficient = 0 then 0
  else if 310 < place then infinity
  else if place < -330 then 0
  else if 0 ≤ exponent then nearest (coefficient * Nat.pow 10 exponent.toNat) 1
  else nearest coefficient (Nat.pow 10 (-exponent).toNat)

end LexRules.Binary64
