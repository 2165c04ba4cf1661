import LexRules.Cursor
import LexRules.Fault
import LexRules.Text.Blank

/-! Rules and the lines of a definition file. A line opens a namespace section with `::`, holds one
rule `<priority>/<pattern>/<captures>`, or is blank; in a pattern `//` stands for `/`. -/

namespace LexRules

structure Rule where
  space : Option Text
  priority : Text
  pattern : Text
  captures : Text
  line : Nat
  deriving DecidableEq

inductive LineReading
  | blank
  | opens (space : Text)
  | rule (r : Rule)
  | malformed (flaw : LineFlaw)
  deriving DecidableEq

namespace Rule

def sectionMark : Text := "::".toList

def delimiter : Text := "/".toList

/-- The rule that a line holds, in the section `space` and at line `number`. Only the pattern is
left as it stands, and only in it is a doubled delimiter an escape. -/
def ofLine (space : Option Text) (number : Nat) (line : Text) : Except LineFlaw Rule :=
  match (Cursor.start line).takeField? delimiter false with
  | none => .error .openPriority
  | some (priority, c) =>
    match c.takeField? delimiter true with
    | none => .error .openPattern
    | some (pattern, c) =>
      .ok ⟨space, Text.trim priority, pattern, Text.trim c.remaining, number⟩

end Rule

/-- Reads one line. When a section is required, a rule outside every section is refused before its
fields are looked at. -/
def LineReading.of (required : Bool) (space : Option Text) (number : Nat) (line : Text) :
    LineReading :=
  if Text.allBlank line then .blank
  else if Rule.sectionMark.isPrefixOf line then
    let name := Text.trim (line.drop Rule.sectionMark.length)
    if name = [] then .malformed .unnamedNamespace else .opens name
  else if required && space.isNone then .malformed .ruleBeforeNamespace
  else match Rule.ofLine space number line with
    | .ok r => .rule r
    | .error flaw => .malformed flaw

end LexRules
