import LexRules.Glob.Reader
import LexRules.Path
import LexRules.Text.Blank

/-! Exclude patterns, one to a line as in ignore files. The last pattern that matches an entry
decides whether it is left out. -/

namespace LexRules

structure Exclusion where
  glob : Glob.Pattern
  directoriesOnly : Bool
  reincludes : Bool

namespace Exclusion

/-- A line without the white space at its end, which stays when a backslash protects it. -/
def strip (line : Text) : Text :=
  if ['\\', ' '].isSuffixOf line then line else Text.trimEnd line

def readMarks : Text → Bool × Bool × Text
  | '\\' :: '!' :: rest => (false, false, '!' :: rest)
  | '\\' :: '#' :: rest => (false, false, '#' :: rest)
  | '!' :: '/' :: rest => (true, true, rest)
  | '!' :: rest => (true, false, rest)
  | '/' :: rest => (false, true, rest)
  | rest => (false, false, rest)

def readEnd (t : Text) : Bool × Text :=
  if t.getLast? = some '/' then (true, Text.dropFinal '\\' t.dropLast) else (false, t)

/-- A pattern that is not tied to the root and has no slash is looked for in every directory. -/
def anywhere (anchored : Bool) (t : Text) : Text :=
  if anchored || t.contains '/' || t == "**".toList then t else "**/".toList ++ t

/-- What ends in `/**` matches what is inside a directory and not the directory. -/
def inside (t : Text) : Text :=
  if "/**".toList.isSuffixOf t then t ++ "/*".toList else t

def ofStripped (line : Text) : Except PatternFlaw Exclusion :=
  let (reincludes, anchored, t) := readMarks line
  let (directoriesOnly, t) := readEnd t
  (Glob.ofText (inside (anywhere anchored t))).map fun glob => ⟨glob, directoriesOnly, reincludes⟩

def ofLine? (line : Text) : Except Fault (Option Exclusion) :=
  if line.head? = some '#' then .ok none
  else
    let stripped := strip line
    if stripped = [] then .ok none
    else match ofStripped stripped with
      | .ok e => .ok (some e)
      | .error flaw => .error (.badPattern line stripped flaw)

def ofLines : List Text → Except Fault (List Exclusion)
  | [] => .ok []
  | line :: rest => do
    let e ← ofLine? line
    return e.toList ++ (← ofLines rest)

def applies (e : Exclusion) (relative : Path) (isDirectory : Bool) : Bool :=
  (!e.directoriesOnly || isDirectory) && Glob.matchesBytes e.glob relative

def excludes (patterns : List Exclusion) (relative : Path) (isDirectory : Bool) : Bool :=
  match patterns.reverse.find? fun e => e.applies relative isDirectory with
  | some e => !e.reincludes
  | none => false

def dropHere (path : Path) : Path := (Text.after? [Path.dot, Path.slash] path).getD path

def relativeTo (root path : Path) : Path :=
  let root := dropHere root
  let path := dropHere path
  if Path.same root [Path.dot] || !path.contains Path.slash then path
  else match Text.after? root path with
    | some rest => (Text.after? [Path.slash] rest).getD rest
    | none => path

end Exclusion

end LexRules
