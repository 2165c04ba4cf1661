import LexRules.Glob

/-! Reading globs. Classes and groups have their brackets, `**` next to slashes means directories,
and a class that is never closed is no class. -/

namespace LexRules.Glob

def extendLatest (c : Char) : List (Char × Char) → Except PatternFlaw (List (Char × Char))
  | [] => .ok [(c, c)]
  | (first, _) :: rest =>
    if c < first then .error (.invertedRange first c) else .ok ((first, c) :: rest)

/-- The ranges of a class, the latest first, and what follows it; none if it is never closed. Faults
count even in a class that is never closed. A bracket or dash in first place stands for itself, as
does a dash in last place. -/
def readRanges : (atStart inRange : Bool) → List (Char × Char) → Text →
    Except PatternFlaw (Option (List (Char × Char) × Text))
  | _, _, _, [] => .ok none
  | atStart, inRange, ranges, c :: rest =>
    if c = ']' ∧ !atStart then
      .ok (some (if inRange then ('-', '-') :: ranges else ranges, rest))
    else if c = '-' ∧ !atStart ∧ !inRange then readRanges false true ranges rest
    else if inRange then
      match extendLatest c ranges with
      | .ok ranges => readRanges false false ranges rest
      | .error flaw => .error flaw
    else readRanges false false ((c, c) :: ranges) rest

def readBody (negated : Bool) (t : Text) : Except PatternFlaw (Option (Piece × Text)) :=
  match readRanges true false [] t with
  | .error flaw => .error flaw
  | .ok none => .ok none
  | .ok (some (ranges, rest)) => .ok (some (.oneOf negated ranges.reverse, rest))

def readClass : Text → Except PatternFlaw (Option (Piece × Text))
  | '!' :: rest => readBody true rest
  | '^' :: rest => readBody true rest
  | rest => readBody false rest

/-- Pieces read so far, the latest first: of the alternative being read, of the earlier ones in its
group, and of what stands around the group. -/
structure Level where
  pieces : List Piece
  earlier : List (List Piece)

structure State where
  current : Level
  outer : List Level
  previous : Option Char
  unclosed : Bool

namespace State

def start : State := ⟨⟨[], []⟩, [], none, false⟩

def push (s : State) (p : Piece) : State :=
  { s with current := { s.current with pieces := p :: s.current.pieces } }

def replaceLatest (s : State) (p : Piece) : State :=
  { s with current := { s.current with pieces := p :: s.current.pieces.drop 1 } }

def after (s : State) (c : Char) : State := { s with previous := some c }

def openGroup (s : State) : State := { s with current := ⟨[], []⟩, outer := s.current :: s.outer }

def nextAlternative (s : State) : State :=
  { s with current := ⟨[], s.current.pieces.reverse :: s.current.earlier⟩ }

def closeGroup (s : State) : Except PatternFlaw State :=
  match s.outer with
  | [] => .error .unopenedGroup
  | level :: outer =>
    let group := Piece.choice (s.current.pieces.reverse :: s.current.earlier).reverse
    .ok { s with current := { level with pieces := group :: level.pieces }, outer := outer }

def inGroup (s : State) : Bool := !s.outer.isEmpty

def pushStars (s : State) : State := ((s.push .many).push .many).after '*'

/-- Directories behind a slash take the place of the slash, and those in front of them as well. -/
def pushDirectories (s : State) (p : Piece) : State :=
  match s.current.pieces with
  | .leading :: _ => s
  | .trailing :: _ => s
  | _ => s.replaceLatest p

def doubleStar (s : State) (rest : Text) : State × Text :=
  if s.current.pieces.isEmpty then
    match rest with
    | [] => (s.push .leading |>.after '*', [])
    | '/' :: rest => (s.push .leading |>.after '/', rest)
    | rest => (s.pushStars, rest)
  else if s.previous ≠ some '/' ∧ (!s.inGroup ∨ s.previous ≠ some ',' ∧ s.previous ≠ some '\x7b') then
    (s.pushStars, rest)
  else match rest with
    | [] => (s.pushDirectories .trailing |>.after '*', [])
    | '/' :: rest => (s.pushDirectories .between |>.after '/', rest)
    | c :: more =>
      if s.inGroup ∧ (c = ',' ∨ c = '\x7d') then
        (s.pushDirectories .trailing |>.after '*', c :: more)
      else (s.pushStars, c :: more)

end State

theorem length_readRanges {atStart inRange : Bool} {ranges found : List (Char × Char)}
    {t rest : Text} (h : readRanges atStart inRange ranges t = .ok (some (found, rest))) :
    rest.length ≤ t.length := by
  induction t generalizing atStart inRange ranges with
  | nil => simp [readRanges] at h
  | cons c t ih =>
    rw [readRanges] at h
    split at h
    · simp only [Except.ok.injEq, Option.some.injEq, Prod.mk.injEq] at h
      simp [← h.2]
    · split at h
      · exact Nat.le_succ_of_le (ih h)
      · split at h
        · split at h
          · exact Nat.le_succ_of_le (ih h)
          · simp at h
        · exact Nat.le_succ_of_le (ih h)

theorem length_readBody {negated : Bool} {t rest : Text} {p : Piece}
    (h : readBody negated t = .ok (some (p, rest))) : rest.length ≤ t.length := by
  unfold readBody at h
  split at h
  · simp at h
  · simp at h
  · rename_i hr
    simp only [Except.ok.injEq, Option.some.injEq, Prod.mk.injEq] at h
    exact h.2 ▸ length_readRanges hr

theorem length_readClass {t rest : Text} {p : Piece} (h : readClass t = .ok (some (p, rest))) :
    rest.length ≤ t.length := by
  unfold readClass at h
  split at h
  · exact Nat.le_succ_of_le (length_readBody h)
  · exact Nat.le_succ_of_le (length_readBody h)
  · exact length_readBody h

theorem length_doubleStar (s : State) (rest : Text) :
    (s.doubleStar rest).2.length ≤ rest.length := by
  unfold State.doubleStar
  split
  · split <;> simp
  · split
    · simp
    · split
      · simp
      · simp
      · split <;> simp

def readFrom (s : State) (t : Text) : Except PatternFlaw Pattern :=
  match t with
  | [] => if s.inGroup then .error .unclosedGroup else .ok s.current.pieces.reverse
  | '?' :: rest => readFrom (s.push .one |>.after '?') rest
  | '*' :: '*' :: rest =>
    have := length_doubleStar s rest
    readFrom (s.doubleStar rest).1 (s.doubleStar rest).2
  | '*' :: rest => readFrom (s.push .many |>.after '*') rest
  | '[' :: rest =>
    if s.unclosed then readFrom (s.push (.literal '[') |>.after '[') rest
    else match h : readClass rest with
      | .error flaw => .error flaw
      | .ok none => readFrom { s.push (.literal '[') |>.after '[' with unclosed := true } rest
      | .ok (some (p, rest')) =>
        have := length_readClass h
        readFrom (s.push p |>.after ']') rest'
  | '\x7b' :: rest => readFrom (s.openGroup.after '\x7b') rest
  | '\x7d' :: rest =>
    match s.closeGroup with
    | .error flaw => .error flaw
    | .ok s => readFrom (s.after '\x7d') rest
  | ',' :: rest =>
    if s.inGroup then readFrom (s.nextAlternative.after ',') rest
    else readFrom (s.push (.literal ',') |>.after ',') rest
  | ['\\'] => .error .danglingEscape
  | '\\' :: c :: rest => readFrom (s.push (.literal c) |>.after c) rest
  | c :: rest => readFrom (s.push (.literal c) |>.after c) rest
termination_by t.length
decreasing_by all_goals simp_wf; try omega

def ofText (t : Text) : Except PatternFlaw Pattern := readFrom State.start t

end LexRules.Glob
