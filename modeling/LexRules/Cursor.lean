import LexRules.Text

/-! A forward-only cursor over a text. A cursor is the text before it and the text after it, so it
always stands between two characters and the whole source can be read off it. -/

namespace LexRules

structure Cursor where
  consumed : Text
  remaining : Text
  deriving DecidableEq

structure Field where
  text : Text
  closed : Bool
  rest : Text
  deriving DecidableEq

namespace Field

def splitAtFirst? (d : Text) : Text → Option (Text × Text)
  | [] => none
  | c :: s =>
    if d.isPrefixOf (c :: s) then some ([], (c :: s).drop d.length)
    else (splitAtFirst? d s).map fun p => (c :: p.1, p.2)

theorem length_lt_of_splitAtFirst? {d s before after : Text} (hd : d ≠ [])
    (h : splitAtFirst? d s = some (before, after)) : after.length < s.length := by
  induction s generalizing before with
  | nil => simp [splitAtFirst?] at h
  | cons c s ih =>
    rw [splitAtFirst?] at h
    split at h
    · have hp : 0 < d.length := List.length_pos_iff.2 hd
      simp only [Option.some.injEq, Prod.mk.injEq] at h
      rw [← h.2, List.length_drop, List.length_cons]
      omega
    · obtain ⟨p, hp, he⟩ := Option.map_eq_some_iff.1 h
      simp only [Prod.mk.injEq] at he
      have := ih (hp.trans (congrArg some (Prod.ext rfl he.2)))
      simp only [List.length_cons]
      omega

/-- The stretch of `s` up to its first terminating `d`, found by searching for `d`. When doubling
escapes, each doubled `d` met from the left stands for one `d` and does not end the stretch. -/
def read (d : Text) (hd : d ≠ []) (escaping : Bool) (s : Text) : Field :=
  match hs : splitAtFirst? d s with
  | none => ⟨s, false, []⟩
  | some (before, after) =>
    have := length_lt_of_splitAtFirst? hd hs
    if escaping && d.isPrefixOf after then
      let next := read d hd escaping (after.drop d.length)
      { next with text := before ++ d ++ next.text }
    else ⟨before, true, after⟩
termination_by s.length
decreasing_by
  simp only [List.length_drop]
  omega

end Field

namespace Cursor

def start (source : Text) : Cursor := ⟨[], source⟩

def source (c : Cursor) : Text := c.consumed ++ c.remaining

def position (c : Cursor) : Nat := Text.byteSize c.consumed

def isExhausted (c : Cursor) : Bool := c.remaining.isEmpty

def peek (c : Cursor) (n : Nat) : Text := c.remaining.take n

def advance (c : Cursor) (n : Nat) : Cursor :=
  ⟨c.consumed ++ c.remaining.take n, c.remaining.drop n⟩

def take (c : Cursor) (n : Nat) : Text × Cursor := (c.peek n, c.advance n)

/-- The cursor with `rest` left, where `rest` ends what is left now. -/
def moveTo (c : Cursor) (rest : Text) : Cursor := c.advance (c.remaining.length - rest.length)

/-- The text up to the next `d`, which is stepped over; all that is left when there is no `d`. The
empty delimiter occurs nowhere: it gives the empty text and does not move the cursor. -/
def takeUntil (c : Cursor) (d : Text) (escaping : Bool) : Text × Cursor :=
  if hd : d = [] then ([], c)
  else
    let field := Field.read d hd escaping c.remaining
    (field.text, c.moveTo field.rest)

/-- The text up to the next `d`, which is stepped over. Without a `d` there is none and the cursor
stays. -/
def takeField? (c : Cursor) (d : Text) (escaping : Bool) : Option (Text × Cursor) :=
  if hd : d = [] then none
  else
    let field := Field.read d hd escaping c.remaining
    if field.closed then some (field.text, c.moveTo field.rest) else none

def takeRest (c : Cursor) : Text × Cursor := (c.remaining, ⟨c.source, []⟩)

end Cursor

end LexRules
