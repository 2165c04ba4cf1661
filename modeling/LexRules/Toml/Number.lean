import LexRules.Toml.Value

/-! Numbers, dates and times of a TOML document. -/

namespace LexRules.Toml

/-- The digits of a number without the underscores, each of which must stand between two digits. -/
def joinDigits? (isDigit : Char → Bool) : Text → Option Text
  | [] => none
  | [c] => if isDigit c then some [c] else none
  | c :: '_' :: rest => if isDigit c then (joinDigits? isDigit rest).map (c :: ·) else none
  | c :: rest => if isDigit c then (joinDigits? isDigit rest).map (c :: ·) else none

/-- The digits of a decimal integer: no zero stands before another digit. -/
def wholeDigits? (t : Text) : Option Text :=
  match joinDigits? Text.isDigit t with
  | some ('0' :: _ :: _) => none
  | digits => digits

def valueIn (base : Nat) (digits : Text) : Nat :=
  digits.foldl (fun n c => base * n + (Text.hexDigit? c).getD 0) 0

def inBase? (base : Nat) (t : Text) : Option Value :=
  let isDigit (c : Char) : Bool := match Text.hexDigit? c with
    | some d => d < base
    | none => false
  (joinDigits? isDigit t).map fun digits => .integer (valueIn base digits)

def signed (negative : Bool) (n : Nat) : Int := if negative then -(n : Int) else n

def splitBefore (p : Char → Bool) (t : Text) : Text × Text :=
  (t.takeWhile fun c => !p c, t.dropWhile fun c => !p c)

def cleanExponent? : Text → Option Text
  | [] => some []
  | _ :: rest =>
    let (sign, digits) := match rest with
      | '-' :: digits => (['-'], digits)
      | '+' :: digits => ([], digits)
      | digits => ([], digits)
    (joinDigits? Text.isDigit digits).map fun digits => 'e' :: sign ++ digits

def cleanFraction? : Text → Option Text
  | [] => some []
  | _ :: rest => (joinDigits? Text.isDigit rest).map ('.' :: ·)

/-- A decimal number without its sign: an integer, or a float when it has a fraction or an
exponent. -/
def decimal? (negative : Bool) (t : Text) : Option Value :=
  let (mantissa, exponent) := splitBefore (fun c => c == 'e' || c == 'E') t
  let (whole, fraction) := splitBefore (· == '.') mantissa
  match wholeDigits? whole, cleanFraction? fraction, cleanExponent? exponent with
  | some whole, some [], some [] => some (.integer (signed negative (Text.digitsValue whole)))
  | some whole, some fraction, some exponent =>
    (Binary64.readNumber? (whole ++ fraction ++ exponent)).map fun m =>
      .float (Binary64.ofMagnitude negative m) false
  | _, _, _ => none

def number? (t : Text) : Option Value :=
  let (negative, rest) := Binary64.splitSign t
  if rest = "inf".toList then some (.float (Binary64.ofMagnitude negative Binary64.infinity) true)
  else if rest = "nan".toList then
    some (.float (Binary64.ofMagnitude negative Binary64.quietNaN) true)
  else if rest = t then
    match t with
    | '0' :: 'x' :: digits => inBase? 16 digits
    | '0' :: 'o' :: digits => inBase? 8 digits
    | '0' :: 'b' :: digits => inBase? 2 digits
    | _ => decimal? negative t
  else decimal? negative rest

def digitField? (width : Nat) (t : Text) : Option (Nat × Text) :=
  let field := t.take width
  if field.length = width ∧ field.all Text.isDigit then
    some (Text.digitsValue field, t.drop width)
  else none

def behind? (c : Char) : Text → Option Text
  | d :: rest => if d = c then some rest else none
  | [] => none

def isLeapYear (year : Nat) : Bool := year % 4 == 0 && (year % 100 != 0 || year % 400 == 0)

def daysInMonth (year month : Nat) : Nat :=
  if month = 2 then (if isLeapYear year then 29 else 28)
  else if month = 4 ∨ month = 6 ∨ month = 9 ∨ month = 11 then 30
  else 31

def afterDate? (t : Text) : Option Text := do
  let (year, t) ← digitField? 4 t
  let (month, t) ← digitField? 2 (← behind? '-' t)
  let (day, t) ← digitField? 2 (← behind? '-' t)
  guard (1 ≤ month ∧ month ≤ 12 ∧ 1 ≤ day ∧ day ≤ daysInMonth year month)
  return t

/-- What follows the seconds of a time: a point brings at least one digit. -/
def afterFraction? : Text → Option Text
  | '.' :: rest =>
    if (rest.takeWhile Text.isDigit).isEmpty then none else some (rest.dropWhile Text.isDigit)
  | rest => some rest

/-- What follows a time of day. Seconds may be left out, and there are leap seconds. -/
def afterTime? (t : Text) : Option Text := do
  let (hour, t) ← digitField? 2 t
  let (minute, t) ← digitField? 2 (← behind? ':' t)
  guard (hour ≤ 23 ∧ minute ≤ 59)
  match t with
  | ':' :: t =>
    let (second, t) ← digitField? 2 t
    guard (second ≤ 60)
    afterFraction? t
  | _ => return t

def isOffset : Text → Bool
  | [] => true
  | ['Z'] | ['z'] => true
  | c :: t =>
    (c == '+' || c == '-') &&
      match digitField? 2 t with
      | some (hour, ':' :: t) =>
        match digitField? 2 t with
        | some (minute, []) => hour ≤ 23 && minute ≤ 59
        | _ => false
      | _ => false

def isTimeMark (c : Char) : Bool := c == 'T' || c == 't' || c == ' '

def isMoment (t : Text) : Bool :=
  match afterDate? t with
  | some [] => true
  | some (c :: rest) => isTimeMark c && (afterTime? rest).any isOffset
  | none => afterTime? t == some []

def isWordChar (c : Char) : Bool :=
  c.isAlphanum || c == '+' || c == '-' || c == '_' || c == '.' || c == ':'

/-- The word that a text starts with. One blank continues a date when a digit follows it. -/
def splitWord (t : Text) : Text × Text :=
  let word := t.takeWhile isWordChar
  match t.dropWhile isWordChar with
  | ' ' :: c :: rest =>
    if afterDate? word = some [] ∧ Text.isDigit c then
      (word ++ ' ' :: (c :: rest).takeWhile isWordChar, (c :: rest).dropWhile isWordChar)
    else (word, ' ' :: c :: rest)
  | rest => (word, rest)

def word? (word : Text) : Option Value :=
  if word = "true".toList then some (.boolean true)
  else if word = "false".toList then some (.boolean false)
  else if isMoment word then some .moment
  else number? word

end LexRules.Toml
