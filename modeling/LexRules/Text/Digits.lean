import LexRules.Text

/-! Natural numbers as decimal digits. -/

namespace LexRules.Text

def digitChar (n : Nat) : Char := Char.ofNat ('0'.toNat + n % 10)

def ofNat (n : Nat) : Text :=
  if n < 10 then [digitChar n] else ofNat (n / 10) ++ [digitChar n]

def digit? (c : Char) : Option Nat :=
  if '0' ≤ c ∧ c ≤ '9' then some (c.toNat - '0'.toNat) else none

def isDigit (c : Char) : Bool := (digit? c).isSome

def digitsValue (t : Text) : Nat :=
  t.foldl (fun n c => 10 * n + (digit? c).getD 0) 0

def ofInt : Int → Text
  | .ofNat n => ofNat n
  | .negSucc n => '-' :: ofNat (n + 1)

def hexChar (n : Nat) : Char :=
  if n < 10 then digitChar n else Char.ofNat ('a'.toNat + (n - 10))

def hexDigit? (c : Char) : Option Nat :=
  if '0' ≤ c ∧ c ≤ '9' then some (c.toNat - '0'.toNat)
  else if 'a' ≤ c ∧ c ≤ 'f' then some (c.toNat - 'a'.toNat + 10)
  else if 'A' ≤ c ∧ c ≤ 'F' then some (c.toNat - 'A'.toNat + 10)
  else none

end LexRules.Text
