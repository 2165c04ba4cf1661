import LexRules.Path
import LexRules.Rule
import LexRules.Text.Lines

/-! A reader gives the rules of a definition file one by one, and a fault for each line that is no
rule. A line that cannot be read at all is the last thing it gives. -/

namespace LexRules

structure Reader where
  path : Option Path
  required : Bool
  /-- The lines not yet read, up to the first that cannot be. -/
  pending : List (Except IoCause Text)
  space : Option Text
  number : Nat

namespace Reader

abbrev Item := Except Fault Rule

def ofLines (path : Option Path) (required : Bool) (lines : List (Except IoCause Text)) : Reader :=
  ⟨path, required, lines, none, 0⟩

def ofText (required : Bool) (content : Text) : Reader :=
  ofLines none required ((Text.lines content).map .ok)

def linesOf (bytes : Text.Bytes) : List (Except IoCause Text) :=
  (Text.byteLines bytes).map fun line => match line with
    | some t => .ok t
    | none => .error .notUtf8

def ofBytes (required : Bool) (bytes : Text.Bytes) : Reader := ofLines none required (linesOf bytes)

def ioFault (path : Option Path) (cause : IoCause) : Fault :=
  match path with
  | some path => .unreadable path cause
  | none => .io cause

def nextFrom (path : Option Path) (required : Bool) (space : Option Text) (number : Nat) :
    List (Except IoCause Text) → Option Item × Reader
  | [] => (none, ⟨path, required, [], space, number⟩)
  | .error cause :: _ => (some (.error (ioFault path cause)), ⟨path, required, [], space, number⟩)
  | .ok line :: rest =>
    match LineReading.of required space (number + 1) line with
    | .blank => nextFrom path required space (number + 1) rest
    | .opens name => nextFrom path required (some name) (number + 1) rest
    | .rule rule => (some (.ok rule), ⟨path, required, rest, space, number + 1⟩)
    | .malformed flaw =>
      (some (.error (.badLine (number + 1) flaw line)), ⟨path, required, rest, space, number + 1⟩)

def next (r : Reader) : Option Item × Reader :=
  nextFrom r.path r.required r.space r.number r.pending

theorem length_nextFrom_le (path : Option Path) (required : Bool) (space : Option Text)
    (number : Nat) (lines : List (Except IoCause Text)) :
    (nextFrom path required space number lines).2.pending.length ≤ lines.length := by
  induction lines generalizing space number with
  | nil => simp [nextFrom]
  | cons line rest ih =>
    cases line with
    | error cause => simp [nextFrom]
    | ok line =>
      rw [nextFrom]
      split
      · exact Nat.le_succ_of_le (ih space (number + 1))
      · exact Nat.le_succ_of_le (ih _ (number + 1))
      · simp
      · simp

theorem length_nextFrom_lt {path : Option Path} {required : Bool} {space : Option Text}
    {number : Nat} {lines : List (Except IoCause Text)} {item : Item} {r : Reader}
    (h : nextFrom path required space number lines = (some item, r)) :
    r.pending.length < lines.length := by
  cases lines with
  | nil => simp [nextFrom] at h
  | cons line rest =>
    cases line with
    | error cause =>
      simp only [nextFrom, Prod.mk.injEq] at h
      simp [← h.2]
    | ok line =>
      rw [nextFrom] at h
      split at h
      · have := length_nextFrom_le path required space (number + 1) rest
        rw [h] at this
        exact Nat.lt_succ_of_le this
      · rename_i name _
        have := length_nextFrom_le path required (some name) (number + 1) rest
        rw [h] at this
        exact Nat.lt_succ_of_le this
      · simp only [Prod.mk.injEq] at h
        simp [← h.2]
      · simp only [Prod.mk.injEq] at h
        simp [← h.2]

def items (r : Reader) : List Item :=
  match h : r.next with
  | (none, _) => []
  | (some item, r') =>
    have := length_nextFrom_lt h
    item :: r'.items
termination_by r.pending.length

def openings (required : Bool) (space : Option Text) (number : Nat) :
    List (Except IoCause Text) → List (Text × Nat)
  | [] => []
  | .error _ :: _ => []
  | .ok line :: rest =>
    match LineReading.of required space (number + 1) line with
    | .blank | .rule _ => openings required space (number + 1) rest
    | .opens name => (name, number + 1) :: openings required (some name) (number + 1) rest
    | .malformed _ => []

end Reader

namespace Rule

def untilFault : List Reader.Item → List Rule × Option Fault
  | [] => ([], none)
  | .error fault :: _ => ([], some fault)
  | .ok rule :: rest => (rule :: (untilFault rest).1, (untilFault rest).2)

def collect : List Reader.Item → Except Fault (List Rule)
  | [] => .ok []
  | .error fault :: _ => .error fault
  | .ok rule :: rest => (collect rest).map (rule :: ·)

def separate (items : List Reader.Item) : List Rule × List Fault :=
  (items.filterMap Except.toOption,
    items.filterMap fun item => match item with
      | .ok _ => none
      | .error fault => some fault)

def parse (required : Bool) (content : Text) : Except Fault (List Rule) :=
  collect (Reader.ofText required content).items

def diagnose (required : Bool) (content : Text) : List Rule × List Fault :=
  separate (Reader.ofText required content).items

end Rule

end LexRules
