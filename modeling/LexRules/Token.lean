import LexRules.Cursor
import LexRules.Scalar

/-! Scalars stored under a name within a namespace, and the token lines that keep them:
`LexTok#<name>#<namespace>#<type>#<payload>`. -/

namespace LexRules

structure Binding where
  name : Text
  space : Text
  value : Scalar
  deriving DecidableEq

namespace Token

def header : Text := "LexTok".toList

def separator : Char := '#'

def defaultSpace : Text := "default".toList

def isReserved (c : Char) : Bool := c == separator || c == '\n' || c == '\r'

end Token

namespace Binding

def checkPart (part : KeyPart) (t : Text) : Except Fault Unit :=
  if t.any Token.isReserved then .error (.badArgument (.forbiddenCharacter part t)) else .ok ()

def make (name space : Text) (value : Scalar) : Except Fault Binding := do
  if name = [] then throw (.badArgument .emptyName)
  checkPart .name name
  checkPart .space space
  return ⟨name, space, value⟩

def makeDefault (name : Text) (value : Scalar) : Except Fault Binding :=
  make name Token.defaultSpace value

def setValue (b : Binding) (value : Scalar) : Binding := { b with value := value }

def token (b : Binding) : Text :=
  Token.header ++ Token.separator :: b.name ++ Token.separator :: b.space ++
    Token.separator :: b.value.kind.tag ++ Token.separator :: b.value.payload

def encode (b : Binding) : Text := b.token ++ ['\n']

def field (gap : TokenGap) (c : Cursor) : Except Fault (Text × Cursor) :=
  match c.takeField? [Token.separator] false with
  | some next => .ok next
  | none => .error (.truncated gap)

def afterHeader (line : Text) : Except Fault Cursor :=
  match (Cursor.start line).takeField? [Token.separator] false with
  | none => .error (.badHeader line)
  | some (found, c) => if found = Token.header then .ok c else .error (.badHeader found)

/-- The binding that a token line holds. One line end after it is ignored. -/
def decode (line : Text) : Except Fault Binding := do
  let c ← afterHeader (Text.dropFinal '\n' line)
  let (name, c) ← field .name c
  let (space, c) ← field .space c
  let (tag, c) ← field .kind c
  if name = [] then throw (.truncated .emptyName)
  let kind ← Kind.ofTag tag
  let value ← Scalar.ofPayload kind c.remaining
  return ⟨name, space, value⟩

def agrees (a b : Binding) : Bool := a.name == b.name && a.space == b.space && a.value.agrees b.value

def json (b : Binding) : Text :=
  Text.jsonObject [("name", Text.quoted b.name), ("namespace", Text.quoted b.space),
    ("value", b.value.json)]

end Binding

end LexRules
