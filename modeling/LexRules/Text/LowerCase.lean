import LexRules.Text
import LexRules.Text.CaseTable
import LexRules.Text.Ranges

/-! Full lower case: one character may become two, and a capital sigma that ends a word becomes
the final form. -/

namespace LexRules.Text

def nextIsCased (t : Text) : Bool :=
  match t.dropWhile fun c => inRanges c.toNat CaseTable.ignorableRanges with
  | [] => false
  | c :: _ => inRanges c.toNat CaseTable.casedRanges

def lowerChar (c : Char) : Text :=
  if c = 'İ' then ['i', '\u0307'] else [Char.ofNat (CaseTable.lowerCode c.toNat)]

/-- The lower case of a text; `before` is what precedes it, the nearest character first. -/
def lowerAfter (before : Text) : Text → Text
  | [] => []
  | c :: rest =>
    (if c = 'Σ' then
      (if nextIsCased before && !nextIsCased rest then ['ς'] else ['σ'])
    else lowerChar c) ++ lowerAfter (c :: before) rest

def lowerCase (t : Text) : Text := lowerAfter [] t

end LexRules.Text
