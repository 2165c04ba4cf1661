import LexRules.Text

/-! Colours on a terminal. -/

namespace LexRules

inductive Style
  | red
  | green
  | bold
  | dimmed

namespace Style

def codes : Style → String × String
  | .red => ("31", "39")
  | .green => ("32", "39")
  | .bold => ("1", "0")
  | .dimmed => ("2", "0")

def escape (code : String) : Text := '\x1b' :: '[' :: code.toList ++ ['m']

def paint (style : Style) (colors : Bool) (t : Text) : Text :=
  if colors then escape style.codes.1 ++ t ++ escape style.codes.2 else t

end Style

end LexRules
