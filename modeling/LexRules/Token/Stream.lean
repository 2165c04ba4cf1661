import LexRules.Text.Blank
import LexRules.Text.Lines
import LexRules.Token

/-! Many token lines at once. Each line stands or falls by itself, and blank lines count but say
nothing. -/

namespace LexRules.Token

inductive Failure
  | notUtf8
  | fault (f : Fault)
  deriving DecidableEq

def Failure.message : Failure → String
  | .notUtf8 => "line is not valid UTF-8"
  | .fault f => f.message

/-- The lines of a stream of bytes, each of them if it is UTF-8. A carriage return at the end of a
line is dropped, also at the end of the last line. -/
def streamLines (bytes : Text.Bytes) : List (Option Text) :=
  (Text.pieces 0x0A bytes).map fun p => Text.decodeUtf8 (Text.dropFinal 0x0D p.1)

abbrev Outcome := Except Failure Binding

def outcome? : Option Text → Option Outcome
  | none => some (.error .notUtf8)
  | some line =>
    if Text.allBlank line then none else some ((Binding.decode line).mapError .fault)

def outcomes (number : Nat) : List (Option Text) → List (Nat × Outcome)
  | [] => []
  | line :: rest => (outcome? line).toList.map (number, ·) ++ outcomes (number + 1) rest

def bindings (results : List (Nat × Outcome)) : List Binding :=
  results.filterMap fun r => r.2.toOption

def failures (results : List (Nat × Outcome)) : List (Nat × Failure) :=
  results.filterMap fun r => match r.2 with
    | .ok _ => none
    | .error failure => some (r.1, failure)

end LexRules.Token
