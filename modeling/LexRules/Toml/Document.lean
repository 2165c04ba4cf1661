import LexRules.Toml.Number
import LexRules.Toml.Quoted
import LexRules.Toml.Table

/-! TOML documents: statements one after another, each a header or a key with its value, and the
table that they build together. -/

namespace LexRules.Toml

structure Key where
  path : List Text
  last : Text

inductive Statement
  | header (key : Key)
  | next (key : Key)
  | pair (key : Key) (v : Value)

/-- How deep arrays and tables may stand inside one another in a value. -/
def nestingLimit : Nat := 80

def skipBlanks (t : Text) : Text := t.dropWhile fun c => c == ' ' || c == '\t'

/-- What follows a comment, if there is one here. The line end is left. -/
def afterComment : Text → Text
  | '#' :: rest => rest.dropWhile isPlain
  | rest => rest

def afterLineEnd? : Text → Option Text
  | '\n' :: rest => some rest
  | '\r' :: '\n' :: rest => some rest
  | _ => none

def skipSpace : Nat → Text → Text
  | 0, t => t
  | fuel + 1, t =>
    let rest := afterComment (skipBlanks t)
    match afterLineEnd? rest with
    | some rest => skipSpace fuel rest
    | none => rest

def isKeyChar (c : Char) : Bool := c.isAlphanum || c == '-' || c == '_'

def readKeyPart? : Text → Option (Text × Text)
  | '"' :: rest => readBasic .plain rest
  | '\'' :: rest => readLiteral rest
  | t =>
    let part := t.takeWhile isKeyChar
    if part.isEmpty then none else some (part, t.dropWhile isKeyChar)

def readKeyParts? : Nat → Text → Option (List Text × Text)
  | 0, _ => none
  | fuel + 1, t => do
    let (part, rest) ← readKeyPart? (skipBlanks t)
    match skipBlanks rest with
    | '.' :: rest =>
      let (parts, rest) ← readKeyParts? fuel rest
      return (part :: parts, rest)
    | rest => return ([part], rest)

def readKey? (t : Text) : Option (Key × Text) := do
  let (parts, rest) ← readKeyParts? (t.length + 1) t
  let last ← parts.getLast?
  return (⟨parts.dropLast, last⟩, rest)

def inlineTable? (pairs : List (Key × Value)) : Option Value :=
  let step (entries : Entries) (p : Key × Value) : Option Entries :=
    entries.addPair p.1.path p.1.last p.2 false
  (pairs.foldlM step []).map fun entries => .table (entryValues entries)

mutual

def readValue? : Nat → Nat → Text → Option (Value × Text)
  | 0, _, _ => none
  | fuel + 1, depth, t =>
    match t, depth with
    | '[' :: _, 0 | '\x7b' :: _, 0 => none
    | '[' :: rest, depth + 1 =>
      (readItems? fuel depth (skipSpace rest.length rest)).map fun p => (.array p.1, p.2)
    | '\x7b' :: rest, depth + 1 => do
      let (pairs, rest) ← readPairs? fuel depth (skipSpace rest.length rest)
      return (← inlineTable? pairs, rest)
    | '"' :: _, _ | '\'' :: _, _ => (readString? t).map fun p => (.string p.1, p.2)
    | _, _ => (word? (splitWord t).1).map fun v => (v, (splitWord t).2)

/-- The items of an array up to its bracket. A comma may follow the last one. -/
def readItems? : Nat → Nat → Text → Option (List Value × Text)
  | 0, _, _ => none
  | _ + 1, _, ']' :: rest => some ([], rest)
  | fuel + 1, depth, t => do
    let (v, rest) ← readValue? fuel depth t
    match skipSpace rest.length rest with
    | ',' :: rest =>
      let (items, rest) ← readItems? fuel depth (skipSpace rest.length rest)
      return (v :: items, rest)
    | ']' :: rest => return ([v], rest)
    | _ => none

/-- The pairs of an inline table up to its brace. A comma may follow the last one. -/
def readPairs? : Nat → Nat → Text → Option (List (Key × Value) × Text)
  | 0, _, _ => none
  | _ + 1, _, '\x7d' :: rest => some ([], rest)
  | fuel + 1, depth, t => do
    let (key, rest) ← readKey? t
    let rest ← behind? '=' rest
    let (v, rest) ← readValue? fuel depth (skipBlanks rest)
    match skipSpace rest.length rest with
    | ',' :: rest =>
      let (pairs, rest) ← readPairs? fuel depth (skipSpace rest.length rest)
      return ((key, v) :: pairs, rest)
    | '\x7d' :: rest => return ([(key, v)], rest)
    | _ => none

end

def readStatement? : Text → Option (Statement × Text)
  | '[' :: '[' :: rest => do
    let (key, rest) ← readKey? rest
    let rest ← behind? ']' rest
    return (.next key, ← behind? ']' rest)
  | '[' :: rest => do
    let (key, rest) ← readKey? rest
    return (.header key, ← behind? ']' rest)
  | t => do
    let (key, rest) ← readKey? t
    let rest := skipBlanks (← behind? '=' rest)
    let (v, rest) ← readValue? (rest.length + 1) nestingLimit rest
    return (.pair key v, rest)

def endLine? (t : Text) : Option Text :=
  match afterComment (skipBlanks t) with
  | [] => some []
  | rest => afterLineEnd? rest

def readStatements? : Nat → Text → Option (List Statement)
  | 0, t => if t.isEmpty then some [] else none
  | fuel + 1, t =>
    match endLine? t with
    | some [] => some []
    | some rest => readStatements? fuel rest
    | none => do
      let (s, rest) ← readStatement? (skipBlanks t)
      let rest ← endLine? rest
      return s :: (← readStatements? fuel rest)

/-- The table that statements build, and the header that stands over the last of them. -/
def build? : List Statement → Option (List Text) → Entries → Option Entries
  | [], _, entries => some entries
  | .header key :: rest, _, entries => do
    let entries ← entries.edit false (fun _ e => e.openTable key.last) key.path false
    build? rest (some (key.path ++ [key.last])) entries
  | .next key :: rest, _, entries => do
    let entries ← entries.edit false (fun _ e => e.openNext key.last) key.path false
    build? rest (some (key.path ++ [key.last])) entries
  | .pair key v :: rest, header, entries => do
    let entries ← entries.edit false (fun here e => e.addPair key.path key.last v here)
      (header.getD []) false
    build? rest header entries

/-- The entries of the table that a document holds, if it is one. A byte order mark may open it. -/
def parse? (t : Text) : Option (List (Text × Value)) := do
  let t := match t with
    | '\uFEFF' :: rest => rest
    | rest => rest
  let statements ← readStatements? (t.length + 1) t
  return entryValues (← build? statements none [])

end LexRules.Toml
