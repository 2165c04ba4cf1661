import LexRules.Binary64.Literal
import LexRules.Fault
import LexRules.Text.Quoted

/-! Scalars, their kinds, and their payloads: the text that a scalar of a kind is written as and
read from. -/

namespace LexRules

inductive Scalar
  | null
  | integer (value : Int64)
  | float (value : Binary64)
  | text (value : Text)
  deriving DecidableEq

instance : Inhabited Scalar := ⟨.null⟩

inductive Kind
  | null
  | long
  | double
  | string
  deriving DecidableEq

namespace Kind

def all : List Kind := [.null, .long, .double, .string]

def tag : Kind → Text
  | .null => "dtNull".toList
  | .long => "dtLong".toList
  | .double => "dtDouble".toList
  | .string => "dtString".toList

def ofTag? (tag : Text) : Option Kind := all.find? fun kind => kind.tag == tag

def ofTag (tag : Text) : Except Fault Kind :=
  match ofTag? tag with
  | some kind => .ok kind
  | none => .error (.unknownKind tag)

end Kind

/-- The decimal integer that digits spell after `value`, as long as it stays within `limit`. The
first character that is no digit or takes the value past the limit decides. -/
def readDigits (limit : Nat) (overflow : NumberFlaw) (value : Nat) : Text → Except NumberFlaw Nat
  | [] => .ok value
  | c :: rest =>
    match Text.digit? c with
    | none => .error .invalidDigit
    | some d =>
      if limit < 10 * value + d then .error overflow
      else readDigits limit overflow (10 * value + d) rest

def readInteger : Text → Except NumberFlaw Int64
  | [] => .error .emptyInteger
  | ['+'] => .error .invalidDigit
  | ['-'] => .error .invalidDigit
  | '-' :: digits =>
    (readDigits (Nat.pow 2 63) .tooSmall 0 digits).map fun n => Int64.ofInt (-(n : Int))
  | '+' :: digits => (readDigits (Nat.pow 2 63 - 1) .tooLarge 0 digits).map fun n => Int64.ofInt n
  | digits => (readDigits (Nat.pow 2 63 - 1) .tooLarge 0 digits).map fun n => Int64.ofInt n

def readFloat (t : Text) : Except NumberFlaw Binary64 :=
  if t = [] then .error .emptyFloat
  else match Binary64.ofLiteral? t with
    | some x => .ok x
    | none => .error .invalidFloat

namespace Scalar

/-- Floats in payloads are positional from `1e-4` up to below `1e16`. -/
def payloadLayout : Binary64.Layout := ⟨-4, 15, false, .up⟩

/-- Floats in JSON are positional from `1e-5` up to below `1e16`, and other exponents show their
sign. -/
def jsonLayout : Binary64.Layout := ⟨-5, 15, true, .even⟩

def kind : Scalar → Kind
  | .null => .null
  | .integer _ => .long
  | .float _ => .double
  | .text _ => .string

def isNull (s : Scalar) : Bool := s.kind == .null

def floatPayload (x : Binary64) : Text :=
  if x.isFinite then payloadLayout.finiteText x else x.specialName

def payload : Scalar → Text
  | .null => []
  | .integer n => Text.ofInt n.toInt
  | .float x => floatPayload x
  | .text t => t

/-- The scalar of a kind that a payload spells. A null ignores its payload. -/
def ofPayload (kind : Kind) (payload : Text) : Except Fault Scalar :=
  match kind with
  | .null => .ok .null
  | .long => ((readInteger payload).map integer).mapError (.badPayload kind.tag payload)
  | .double => ((readFloat payload).map float).mapError (.badPayload kind.tag payload)
  | .string => .ok (.text payload)

/-- Equality of scalars. Integers and texts are compared exactly; all NaNs are equal, and other
floats are equal when they are near. -/
def agrees : Scalar → Scalar → Bool
  | .null, .null => true
  | .integer m, .integer n => m == n
  | .float x, .float y => x.isNaN && y.isNaN || x.isNear y
  | .text s, .text t => s == t
  | _, _ => false

/-- The value of a float in JSON, where a float that is not finite is a string. -/
def floatJson (x : Binary64) : Text :=
  if x.isFinite then jsonLayout.finiteText x else Text.quoted x.specialName

def json : Scalar → Text
  | .null => Text.jsonObject [("type", Text.quoted "null".toList)]
  | .integer n =>
    Text.jsonObject [("type", Text.quoted "integer".toList), ("value", Text.ofInt n.toInt)]
  | .float x => Text.jsonObject [("type", Text.quoted "float".toList), ("value", floatJson x)]
  | .text t => Text.jsonObject [("type", Text.quoted "text".toList), ("value", Text.quoted t)]

end Scalar

end LexRules
