import LexRules.Text.Digits

/-! Compact JSON. In string literals quotes, backslashes and control characters are escaped and
everything else stands as it is. -/

namespace LexRules.Text

def escapeChar (c : Char) : Text :=
  if c = '"' then ['\\', '"']
  else if c = '\\' then ['\\', '\\']
  else if c = '\x08' then ['\\', 'b']
  else if c = '\t' then ['\\', 't']
  else if c = '\n' then ['\\', 'n']
  else if c = '\x0c' then ['\\', 'f']
  else if c = '\r' then ['\\', 'r']
  else if c.toNat < 0x20 then
    ['\\', 'u', '0', '0', hexChar (c.toNat / 16), hexChar (c.toNat % 16)]
  else [c]

def quoted (t : Text) : Text := '"' :: t.flatMap escapeChar ++ ['"']

def jsonArray (values : List Text) : Text := '[' :: joinWith [','] values ++ [']']

def jsonField (f : String × Text) : Text := quoted f.1.toList ++ ':' :: f.2

def jsonObject (fields : List (String × Text)) : Text :=
  '\x7b' :: joinWith [','] (fields.map jsonField) ++ ['\x7d']

end LexRules.Text
