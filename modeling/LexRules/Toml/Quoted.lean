import LexRules.Text.Digits

/-! Strings of a TOML document, on one line or on several. Each reader starts behind the opening
quotes and gives the text and what follows the closing quotes. -/

namespace LexRules.Toml

/-- Characters that may stand as they are in strings and comments: no controls but the tab. -/
def isPlain (c : Char) : Bool := c == '\t' || 0x20 ≤ c.toNat && c.toNat != 0x7F

inductive Phase
  | plain
  | escape
  /-- Inside a code with so many digits to come. -/
  | code (left value : Nat)
  /-- Behind a backslash at a line end; whether the line end has been met. -/
  | gap (crossed : Bool)

def shortEscape? : Char → Option Char
  | 'b' => some '\x08'
  | 't' => some '\t'
  | 'n' => some '\n'
  | 'f' => some '\x0c'
  | 'r' => some '\r'
  | 'e' => some '\x1b'
  | '"' => some '"'
  | '\\' => some '\\'
  | _ => none

def codeLength? : Char → Option Nat
  | 'x' => some 2
  | 'u' => some 4
  | 'U' => some 8
  | _ => none

def scalarValue? (n : Nat) : Option Char := if n.isValidChar then some (Char.ofNat n) else none

def prepend (c : Char) (r : Option (Text × Text)) : Option (Text × Text) :=
  r.map fun p => (c :: p.1, p.2)

/-- At most two more quotes may stand directly before three closing ones. -/
def closing? (quote : Char) (rest : Text) : Option (Text × Text) :=
  let more := rest.takeWhile (· == quote)
  if more.length ≤ 2 then some (more, rest.dropWhile (· == quote)) else none

def readBasic : Phase → Text → Option (Text × Text)
  | _, [] => none
  | .plain, c :: rest =>
    if c = '"' then some ([], rest)
    else if c = '\\' then readBasic .escape rest
    else if isPlain c then prepend c (readBasic .plain rest)
    else none
  | .escape, c :: rest =>
    match shortEscape? c, codeLength? c with
    | some e, _ => prepend e (readBasic .plain rest)
    | none, some n => readBasic (.code n 0) rest
    | none, none => none
  | .code left value, c :: rest =>
    match Text.hexDigit? c with
    | none => none
    | some d =>
      if left ≤ 1 then
        match scalarValue? (16 * value + d) with
        | some e => prepend e (readBasic .plain rest)
        | none => none
      else readBasic (.code (left - 1) (16 * value + d)) rest
  | .gap _, _ :: _ => none

/-- Reads a string with escapes on several lines. A backslash at a line end swallows all blanks and
line ends up to the next other character. -/
def readBasicLines : Phase → Text → Option (Text × Text)
  | _, [] => none
  | .plain, '"' :: '"' :: '"' :: rest => closing? '"' rest
  | .plain, '\r' :: '\n' :: rest => prepend '\r' (prepend '\n' (readBasicLines .plain rest))
  | .plain, c :: rest =>
    if c = '\\' then readBasicLines .escape rest
    else if c = '\n' || isPlain c then prepend c (readBasicLines .plain rest)
    else none
  | .escape, '\r' :: '\n' :: rest => readBasicLines (.gap true) rest
  | .escape, c :: rest =>
    match shortEscape? c, codeLength? c with
    | some e, _ => prepend e (readBasicLines .plain rest)
    | none, some n => readBasicLines (.code n 0) rest
    | none, none =>
      if c = '\n' then readBasicLines (.gap true) rest
      else if c = ' ' || c = '\t' then readBasicLines (.gap false) rest
      else none
  | .code left value, c :: rest =>
    match Text.hexDigit? c with
    | none => none
    | some d =>
      if left ≤ 1 then
        match scalarValue? (16 * value + d) with
        | some e => prepend e (readBasicLines .plain rest)
        | none => none
      else readBasicLines (.code (left - 1) (16 * value + d)) rest
  | .gap _, '\r' :: '\n' :: rest => readBasicLines (.gap true) rest
  | .gap crossed, c :: rest =>
    if c = '\n' then readBasicLines (.gap true) rest
    else if c = ' ' || c = '\t' then readBasicLines (.gap crossed) rest
    else if !crossed then none
    else if c = '\\' then readBasicLines .escape rest
    else if c = '"' then
      match rest with
      | '"' :: '"' :: rest => closing? '"' rest
      | _ => prepend c (readBasicLines .plain rest)
    else if isPlain c then prepend c (readBasicLines .plain rest)
    else none

def readLiteral : Text → Option (Text × Text)
  | [] => none
  | c :: rest =>
    if c = '\'' then some ([], rest)
    else if isPlain c then prepend c (readLiteral rest)
    else none

def readLiteralLines : Text → Option (Text × Text)
  | [] => none
  | '\'' :: '\'' :: '\'' :: rest => closing? '\'' rest
  | '\r' :: '\n' :: rest => prepend '\r' (prepend '\n' (readLiteralLines rest))
  | c :: rest => if c = '\n' || isPlain c then prepend c (readLiteralLines rest) else none

/-- A line end directly behind the opening quotes is no part of the string. -/
def dropFirstLineEnd : Text → Text
  | '\r' :: '\n' :: rest => rest
  | '\n' :: rest => rest
  | rest => rest

def readString? : Text → Option (Text × Text)
  | '"' :: '"' :: '"' :: rest => readBasicLines .plain (dropFirstLineEnd rest)
  | '"' :: rest => readBasic .plain rest
  | '\'' :: '\'' :: '\'' :: rest => readLiteralLines (dropFirstLineEnd rest)
  | '\'' :: rest => readLiteral rest
  | _ => none

end LexRules.Toml
