/-! Text as a list of characters, so that every rule about text is a recursion on its data. -/

namespace LexRules

abbrev Text := List Char

namespace Text

def byteSize : Text → Nat
  | [] => 0
  | c :: rest => c.utf8Size + byteSize rest

section Lists

variable {α : Type}

def after? [DecidableEq α] (lead l : List α) : Option (List α) :=
  if lead.isPrefixOf l then some (l.drop lead.length) else none

def dropFinal [DecidableEq α] (a : α) (l : List α) : List α :=
  if l.getLast? = some a then l.dropLast else l

/-- The pieces between the elements `sep`; there is always one more than there are `sep`. -/
def splitOn [DecidableEq α] (sep : α) : List α → List (List α)
  | [] => [[]]
  | c :: rest =>
    if c = sep then [] :: splitOn sep rest
    else match splitOn sep rest with
      | [] => [[c]]
      | piece :: pieces => (c :: piece) :: pieces

def joinWith (sep : List α) : List (List α) → List α
  | [] => []
  | [piece] => piece
  | piece :: pieces => piece ++ sep ++ joinWith sep pieces

end Lists

@[simp] theorem byteSize_nil : byteSize [] = 0 := rfl

@[simp] theorem byteSize_cons (c : Char) (t : Text) :
    byteSize (c :: t) = c.utf8Size + byteSize t := rfl

@[simp] theorem byteSize_append (s t : Text) : byteSize (s ++ t) = byteSize s + byteSize t := by
  induction s with
  | nil => simp
  | cons c s ih => simp [ih, Nat.add_assoc]

end Text

end LexRules
