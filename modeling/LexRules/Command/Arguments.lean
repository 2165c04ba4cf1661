import LexRules.Command
import LexRules.Token

/-! Reading the arguments of the command line. Options may stand anywhere, those of every command
also before its name; `--` ends them. -/

namespace LexRules.Arguments

inductive Verb
  | discover
  | parse
  | encode
  | decode
  deriving DecidableEq

inductive Switch
  | verbose
  | noColor
  | deep
  | requireNamespace
  | help
  | version
  deriving DecidableEq

inductive Slot
  | path
  | extension
  | format
  | space
  | kind
  deriving DecidableEq

inductive Flag
  | switch (s : Switch)
  | slot (s : Slot)
  deriving DecidableEq

inductive Refusal
  | usage
  | help
  | version
  deriving DecidableEq

structure Given where
  switches : List Switch
  slots : List (Slot × Text)
  words : List Text
  deriving DecidableEq

def verb? (t : Text) : Option Verb :=
  if t = "discover".toList then some .discover
  else if t = "parse".toList then some .parse
  else if t = "encode".toList then some .encode
  else if t = "decode".toList then some .decode
  else none

/-- The flags that go with a command, by their long names; `none` stands for no command yet. -/
def ownFlags : Option Verb → List (String × Flag)
  | none => [("version", .switch .version)]
  | some .discover =>
    [("deep", .switch .deep), ("ext", .slot .extension), ("format", .slot .format)]
  | some .parse =>
    [("deep", .switch .deep), ("require-namespace", .switch .requireNamespace),
     ("format", .slot .format)]
  | some .encode => [("namespace", .slot .space), ("kind", .slot .kind)]
  | some .decode => [("format", .slot .format)]

def commonFlags : List (String × Flag) :=
  [("path", .slot .path), ("verbose", .switch .verbose), ("no-color", .switch .noColor),
   ("help", .switch .help)]

def longFlag? (verb : Option Verb) (name : Text) : Option Flag :=
  ((ownFlags verb ++ commonFlags).find? fun f => f.1.toList == name).map Prod.snd

def longName? : Char → Option String
  | 'V' => some "version"
  | 'p' => some "path"
  | 'v' => some "verbose"
  | 'h' => some "help"
  | 'n' => some "namespace"
  | 'k' => some "kind"
  | _ => none

def shortFlag? (verb : Option Verb) (c : Char) : Option Flag :=
  (longName? c).bind fun name => longFlag? verb name.toList

def format? (t : Text) : Option OutputFormat :=
  if t = "text".toList then some .text
  else if t = "json".toList then some .json
  else none

def kind? (t : Text) : Option Kind :=
  if t = "null".toList then some .null
  else if t = "long".toList then some .long
  else if t = "double".toList then some .double
  else if t = "string".toList then some .string
  else none

def Slot.admits : Slot → Text → Bool
  | .path, t => !t.isEmpty
  | .format, t => (format? t).isSome
  | .kind, t => (kind? t).isSome
  | .extension, _ | .space, _ => true

def wordLimit : Option Verb → Option Nat
  | none | some .discover => some 0
  | some .parse => none
  | some .encode => some 2
  | some .decode => some 1

namespace Given

def nothing : Given := ⟨[], [], []⟩

/-- No switch may be given twice. Asking for help or the version ends the reading. -/
def addSwitch (g : Given) (s : Switch) : Except Refusal Given :=
  if s = .help then .error .help
  else if s = .version then .error .version
  else if s ∈ g.switches then .error .usage
  else .ok { g with switches := s :: g.switches }

/-- Of the options with values only extensions may be given more than once. -/
def addSlot (g : Given) (s : Slot) (value : Text) : Except Refusal Given :=
  if !s.admits value then .error .usage
  else if s ≠ .extension ∧ g.slots.any (·.1 == s) then .error .usage
  else .ok { g with slots := g.slots ++ [(s, value)] }

def addWord (g : Given) (verb : Option Verb) (word : Text) : Except Refusal Given :=
  let fits : Bool := match wordLimit verb with
    | some n => g.words.length < n
    | none => !word.isEmpty
  if fits then .ok { g with words := g.words ++ [word] } else .error .usage

def addWords (g : Given) (verb : Option Verb) : List Text → Except Refusal Given
  | [] => .ok g
  | word :: rest => do (← g.addWord verb word).addWords verb rest

def value? (g : Given) (s : Slot) : Option Text :=
  (g.slots.find? fun p => p.1 == s).map Prod.snd

def values (g : Given) (s : Slot) : List Text :=
  (g.slots.filter fun p => p.1 == s).map Prod.snd

end Given

/-- Short options in one argument: switches, and at the end an option whose value may be attached,
with or without an equals sign, or still to come. -/
def readShort (verb : Option Verb) (g : Given) : Text → Except Refusal (Given × Option Slot)
  | [] => .ok (g, none)
  | c :: rest =>
    match shortFlag? verb c with
    | none => .error .usage
    | some (.switch s) => do readShort verb (← g.addSwitch s) rest
    | some (.slot s) =>
      match rest with
      | [] => .ok (g, some s)
      | '=' :: value | value => do return (← g.addSlot s value, none)

def readLong (verb : Option Verb) (g : Given) (t : Text) : Except Refusal (Given × Option Slot) :=
  let name := t.takeWhile (· ≠ '=')
  match longFlag? verb name, t.drop name.length with
  | some (.switch s), [] => do return (← g.addSwitch s, none)
  | some (.slot s), [] => .ok (g, some s)
  | some (.slot s), _ :: value => do return (← g.addSlot s value, none)
  | _, _ => .error .usage

/-- Digits with at most one dot, and one `e` behind the dot; neither comes first, nor the `e` last.
The flags tell whether this is the first character and whether a dot or an `e` has come. -/
def isNumberFrom : (first dot mark : Bool) → Text → Bool
  | _, _, _, [] => true
  | first, dot, mark, c :: rest =>
    if Text.isDigit c then isNumberFrom false dot mark rest
    else if c = '.' then !first && !dot && !mark && isNumberFrom false true mark rest
    else if c = 'e' then !first && !mark && !rest.isEmpty && isNumberFrom false dot true rest
    else false

/-- Whether an argument that starts with a dash is a number where one may stand: as the second word
of a command that encodes. -/
def isNegativeValue (verb : Option Verb) (g : Given) (behindDash : Text) : Bool :=
  verb == some .encode && g.words.length == 1 && isNumberFrom true false false behindDash

/-- Reads arguments up to the name of a command, if one is still to come, or to their end. The
option `pending` waits for its value. -/
def readFlags (verb : Option Verb) (g : Given) (pending : Option Slot) :
    List Text → Except Refusal (Given × Option (Verb × List Text))
  | [] => if pending.isSome then .error .usage else .ok (g, none)
  | arg :: rest =>
    match verb, pending, verb? arg with
    | none, none, some v => .ok (g, some (v, rest))
    | _, _, _ =>
      if verb = none ∧ pending = none ∧ arg = "help".toList then .error .help
      else
        let plain : Except Refusal Given := match pending with
          | some s => g.addSlot s arg
          | none => g.addWord verb arg
        match arg with
        | ['-', '-'] =>
          if pending.isSome then .error .usage
          else do return (← g.addWords verb rest, none)
        | '-' :: '-' :: name =>
          if pending.isSome then .error .usage
          else do
            let (g, pending) ← readLong verb g name
            readFlags verb g pending rest
        | '-' :: c :: more =>
          if isNegativeValue verb g (c :: more) then do readFlags verb (← plain) none rest
          else if pending.isSome then .error .usage
          else do
            let (g, pending) ← readShort verb g (c :: more)
            readFlags verb g pending rest
        | _ => do readFlags verb (← plain) none rest

def commandOf (verb : Verb) (g : Given) : Except Refusal Command :=
  let deep := g.switches.contains .deep
  let format := ((g.value? .format).bind format?).getD .text
  match verb with
  | .discover => .ok (.discover deep (g.values .extension) format)
  | .parse =>
    let files := g.words.map Path.ofText
    .ok (.parse files deep (g.switches.contains .requireNamespace) format)
  | .encode =>
    match g.words with
    | [] => .error .usage
    | name :: rest =>
      .ok (.encode name rest.head? ((g.value? .space).getD Token.defaultSpace)
        ((g.value? .kind).bind kind?))
  | .decode => .ok (.decode g.words.head? format)

/-- The options that go with every command; behind the command's name they count for more. -/
def invocation (before behind : Given) (command : Option Command) : Invocation :=
  let has (s : Switch) : Bool := before.switches.contains s || behind.switches.contains s
  let root := (behind.value? .path).or (before.value? .path)
  ⟨command, root.map Path.ofText, has .verbose, has .noColor⟩

def read (args : List Text) : Except Refusal Invocation := do
  let (before, next) ← readFlags none .nothing none args
  match next with
  | none => return invocation before .nothing none
  | some (verb, rest) =>
    let (behind, _) ← readFlags (some verb) .nothing none rest
    return invocation before behind (some (← commandOf verb behind))

end LexRules.Arguments
