import LexRules.Command.Run
import LexRules.Proofs.Text.Split
import Mathlib.Data.List.Basic

/-! What is printed about definition files. In text form a file has a line with its path and the number
of its rules, and each rule behind it a line with its fields; as JSON it is an object. Faults go to
standard error, each on a line of its own. -/

namespace LexRules

namespace Text

def written (lines : List Text) : Text := lines.flatMap fun line => line ++ ['\n']

lemma joinWith_eq_intercalate (sep : Text) (pieces : List Text) :
    joinWith sep pieces = List.intercalate sep pieces := by
  induction pieces with
  | nil => rfl
  | cons piece pieces ih =>
    cases pieces with
    | nil => simp [joinWith, List.intercalate]
    | cons next pieces =>
      rw [joinWith_cons sep piece (List.cons_ne_nil next pieces), ih]
      simp [List.intercalate]

lemma splitOn_written {lines : List Text} (h : ∀ line ∈ lines, '\n' ∉ line) :
    splitOn '\n' (written lines) = lines ++ [[]] := by
  induction lines with
  | nil => rfl
  | cons line lines ih =>
    obtain ⟨hline, hlines⟩ := List.forall_mem_cons.1 h
    rw [written, List.flatMap_cons, List.append_assoc, List.singleton_append, splitOn_append,
      splitOn_of_not_mem hline, ← written, ih hlines, List.singleton_append, List.cons_append]

def member (key : String) (value : Text) : Text := '"' :: key.toList ++ '"' :: ':' :: value

def object (members : List Text) : Text := '\x7b' :: List.intercalate [','] members ++ ['\x7d']

def array (values : List Text) : Text := '[' :: List.intercalate [','] values ++ [']']

lemma jsonArray_eq (values : List Text) : jsonArray values = array values := by
  rw [jsonArray, joinWith_eq_intercalate, array]

lemma jsonField_eq {key : String} (h : key.toList.flatMap escapeChar = key.toList) (value : Text) :
    jsonField (key, value) = member key value := by
  rw [jsonField, quoted, h, member, List.append_assoc]
  rfl

end Text

namespace Context

def marked (c : Context) (on off : String) (t : Text) : Text :=
  if c.colors then '\x1b' :: on.toList ++ t ++ '\x1b' :: off.toList else t

variable (c : Context) (f : Fault) (p : RuleFile) (r : Rule) (files : List RuleFile)

def heading : Text :=
  c.marked "[1m" "[0m" (Path.shownFrom c.root p.path) ++ " (".toList ++ Text.ofNat p.rules.length ++
    if p.rules.length = 1 then " rule)".toList else " rules)".toList

def row : Text :=
  List.intercalate [' '] ["  ".toList ++ c.marked "[2m" "[0m" (List.leftpad 4 ' ' (Text.ofNat r.line)),
    r.space.getD ['-'], r.priority, r.pattern, r.captures]

def complaint : Text := c.marked "[31m" "[39m" "error:".toList ++ [' '] ++ f.message.toList

def fileComplaint : Text :=
  c.marked "[31m" "[39m" "error:".toList ++ [' '] ++ Path.shownFrom c.root p.path ++ ": ".toList ++
    f.message.toList

def outputLines : List Text :=
  if files = [] then ["No definition files found.".toList]
  else (files.flatMap fun p => c.heading p :: p.rules.map c.row) ++
    if files.countP (fun p => p.fault.isSome) = 0 then
      [c.marked "[32m" "[39m" "ok:".toList ++ " parsed ".toList ++ Text.ofNat files.length ++
        " file(s)".toList]
    else []

def errorLines : List Text :=
  files.filterMap (fun p => p.fault.map fun f => c.fileComplaint f p) ++
    if files.countP (fun p => p.fault.isSome) = 0 then []
    else [Text.ofNat (files.countP fun p => p.fault.isSome) ++ " of ".toList ++
      Text.ofNat files.length ++ " file(s) failed to parse".toList]

def jsonRow : Text :=
  Text.object [Text.member "captures" (Text.quoted r.captures), Text.member "line" (Text.ofNat r.line),
    Text.member "namespace" ((r.space.map Text.quoted).getD "null".toList),
    Text.member "pattern" (Text.quoted r.pattern), Text.member "priority" (Text.quoted r.priority)]

def jsonEntry : Text :=
  Text.object [
    Text.member "error" ((p.fault.map fun f => Text.quoted f.message.toList).getD "null".toList),
    Text.member "file" (Text.quoted (Path.shownFrom c.root p.path)),
    Text.member "line" (((p.fault.bind Fault.line?).map Text.ofNat).getD "null".toList),
    Text.member "ok" (if p.fault.isSome then "false".toList else "true".toList),
    Text.member "rules" (Text.array (p.rules.map jsonRow))]

variable {c f p r files}

lemma paint_red (t : Text) : Style.red.paint c.colors t = c.marked "[31m" "[39m" t := by
  rw [Style.paint, marked]
  split <;> rfl

lemma paint_green (t : Text) : Style.green.paint c.colors t = c.marked "[32m" "[39m" t := by
  rw [Style.paint, marked]
  split <;> rfl

lemma paint_bold (t : Text) : Style.bold.paint c.colors t = c.marked "[1m" "[0m" t := by
  rw [Style.paint, marked]
  split <;> rfl

lemma paint_dimmed (t : Text) : Style.dimmed.paint c.colors t = c.marked "[2m" "[0m" t := by
  rw [Style.paint, marked]
  split <;> rfl

lemma ruleLine_eq (r : Rule) : Report.ruleLine c r = c.row r := by
  rw [Report.ruleLine, Text.joinWith_eq_intercalate, paint_dimmed]
  rfl

lemma fileLines_eq (p : RuleFile) : Report.fileLines c p = c.heading p :: p.rules.map c.row := by
  rw [Report.fileLines, paint_bold, funext ruleLine_eq]
  rfl

lemma fileFault_eq (p : RuleFile) : Report.fileFault? c p = p.fault.map fun f => c.fileComplaint f p := by
  rw [Report.fileFault?, errorLabel, paint_red]
  rfl

lemma faultLines_eq (d : Findings) : faultLines c d = d.faults.map c.complaint := by
  rw [faultLines, errorLabel, paint_red]
  rfl

lemma parsedText_eq : Report.parsedText c files = (c.outputLines files, c.errorLines files) := by
  have hfaults : Report.fileFault? c = fun p => p.fault.map fun f => c.fileComplaint f p :=
    funext fileFault_eq
  have hcount : (files.filterMap (Report.fileFault? c)).length = files.countP fun p => p.fault.isSome := by
    rw [hfaults, List.length_filterMap_eq_countP]
    simp
  rw [Report.parsedText, outputLines, errorLines, ← hcount, ← hfaults, funext fileLines_eq, paint_green]
  split
  · rename_i hfiles
    rw [hfiles]
    rfl
  · by_cases hclean : files.filterMap (Report.fileFault? c) = []
    · simp [hclean]
    · simp [hclean]

lemma ruleJson_eq (r : Rule) : Report.ruleJson r = jsonRow r := by
  simp only [Report.ruleJson, Text.jsonObject, List.map_cons, List.map_nil, Text.joinWith_eq_intercalate]
  rw [Text.jsonField_eq rfl, Text.jsonField_eq rfl, Text.jsonField_eq rfl,
    Text.jsonField_eq rfl, Text.jsonField_eq rfl]
  rfl

lemma fileJson_eq (p : RuleFile) : Report.fileJson c p = c.jsonEntry p := by
  have hok : Report.boolJson p.isOk = if p.fault.isSome then "false".toList else "true".toList := by
    rw [RuleFile.isOk, Report.boolJson]
    cases p.fault <;> rfl
  simp only [Report.fileJson, Text.jsonObject, List.map_cons, List.map_nil, Text.joinWith_eq_intercalate,
    hok, Text.jsonArray_eq, funext ruleJson_eq]
  rw [Text.jsonField_eq rfl, Text.jsonField_eq rfl, Text.jsonField_eq rfl,
    Text.jsonField_eq rfl, Text.jsonField_eq rfl]
  rfl

end Context

namespace Outcome

/-- Files are printed, each with its rules and with its fault if it has one, and so are faults of the
search. -/
def Prints (outcome : Outcome) (c : Context) (faults : List Fault) (files : List RuleFile) :
    OutputFormat → Prop
  | .json => outcome.stdout = Text.written [Text.array (files.map c.jsonEntry)] ∧
      outcome.stderr = Text.written (faults.map c.complaint)
  | .text => outcome.stdout = Text.written (c.outputLines files) ∧
      outcome.stderr = Text.written (faults.map c.complaint ++ c.errorLines files)

end Outcome

end LexRules
