import LexRules.Toml.Value

/-! Tables while a TOML document is read. A table remembers how it came about, because that decides
whether a later statement may still add to it. -/

namespace LexRules.Toml

inductive Node
  | closed (v : Value)
  /-- A table; whether only statements about its parts made it, and whether dotted keys did. -/
  | branch (implied dotted : Bool) (entries : List (Text × Node))
  /-- An array of tables, the latest first. -/
  | series (elements : List (List (Text × Node)))

abbrev Entries := List (Text × Node)

namespace Entries

def get? (entries : Entries) (key : Text) : Option Node :=
  (entries.find? fun e => e.1 == key).map Prod.snd

def put (entries : Entries) (key : Text) (node : Node) : Entries :=
  entries.map fun e => if e.1 == key then (key, node) else e

/-- Follows `path` from a table and changes the table at its end; `act` is told whether dotted keys
made that table. Missing tables are made on the way. Dotted keys cannot enter a table that a header
made; a path enters the latest table of a series. -/
def edit (dotted : Bool) (act : Bool → Entries → Option Entries) :
    List Text → Bool → Entries → Option Entries
  | [], here, entries => act here entries
  | key :: path, _, entries =>
    match entries.get? key with
    | none => (edit dotted act path dotted []).map fun e => entries ++ [(key, .branch true dotted e)]
    | some (.branch implied here e) =>
      if dotted && !implied then none
      else (edit dotted act path here e).map fun e => entries.put key (.branch implied here e)
    | some (.series (latest :: earlier)) =>
      (edit dotted act path false latest).map fun e => entries.put key (.series (e :: earlier))
    | some _ => none

def addKey (key : Text) (v : Value) (entries : Entries) : Option Entries :=
  match entries.get? key with
  | some _ => none
  | none => some (entries ++ [(key, .closed v)])

/-- Adds what a dotted key and its value say to a table. Dotted keys and plain ones do not mix in
one table. -/
def addPair (path : List Text) (key : Text) (v : Value) (here : Bool) (entries : Entries) :
    Option Entries :=
  edit true (fun dotted e => if dotted == path.isEmpty then none else addKey key v e) path here
    entries

/-- Opens a table by its header, which may be done once. -/
def openTable (key : Text) (entries : Entries) : Option Entries :=
  match entries.get? key with
  | none => some (entries ++ [(key, .branch false false [])])
  | some (.branch true false e) => some (entries.put key (.branch false false e))
  | some _ => none

def openNext (key : Text) (entries : Entries) : Option Entries :=
  match entries.get? key with
  | none => some (entries ++ [(key, .series [[]])])
  | some (.series elements) => some (entries.put key (.series ([] :: elements)))
  | some _ => none

end Entries

mutual

def Node.value : Node → Value
  | .closed v => v
  | .branch _ _ entries => .table (entryValues entries)
  | .series elements => .array (elementValues elements).reverse

def entryValues : List (Text × Node) → List (Text × Value)
  | [] => []
  | (key, node) :: rest => (key, node.value) :: entryValues rest

def elementValues : List (List (Text × Node)) → List Value
  | [] => []
  | entries :: rest => .table (entryValues entries) :: elementValues rest

end

end LexRules.Toml
