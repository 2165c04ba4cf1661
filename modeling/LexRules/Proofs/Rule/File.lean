import LexRules.Proofs.Rule.Accounting
import LexRules.Rule.File
import Mathlib.Data.List.Induction

/-! What is told of one file: the rules of its lines down to the first that cannot be used, and what is
wrong with that one. -/

namespace LexRules

namespace Rule

def rulesOf (required : Bool) (lines : List Text) : List Rule :=
  (List.range lines.length).flatMap (placedRules required lines)

def Sound (required : Bool) (lines : List Text) : Prop :=
  ∀ i line, lines[i]? = some line → ∀ flaw, readingAt required lines i line ≠ .malformed flaw

def Stops (required : Bool) (lines : List Text) : Except IoCause Text → Prop
  | .error _ => True
  | .ok line => ∃ flaw, readingAt required lines lines.length line = .malformed flaw

variable {required : Bool} {lines : List Text} {line : Text}

lemma sound_nil (required : Bool) : Sound required [] := by
  intro i line h
  exact absurd h nofun

lemma readingAt_append {i : Nat} (hi : i ≤ lines.length) (more : List Text) :
    readingAt required (lines ++ more) i line = readingAt required lines i line := by
  rw [readingAt, readingAt, sectionBefore, sectionBefore, List.take_append_of_le_length hi]

lemma Sound.above {more : List Text} (h : Sound required (lines ++ more)) : Sound required lines := by
  intro i line hline flaw
  obtain ⟨hi, -⟩ := List.getElem?_eq_some_iff.1 hline
  rw [← readingAt_append (Nat.le_of_lt hi) more]
  exact h i line ((List.getElem?_append_left hi).trans hline) flaw

lemma Sound.next {more : List Text} (h : Sound required (lines ++ line :: more)) (flaw : LineFlaw) :
    readingAt required lines lines.length line ≠ .malformed flaw := by
  rw [← readingAt_append (Nat.le_refl _) (line :: more)]
  exact h lines.length line (by simp) flaw

lemma sound_snoc (h : Sound required lines)
    (hline : ∀ flaw, readingAt required lines lines.length line ≠ .malformed flaw) :
    Sound required (lines ++ [line]) := by
  intro i other hother flaw
  rcases Nat.lt_or_ge i lines.length with hi | hi
  · rw [List.getElem?_append_left hi] at hother
    rw [readingAt_append (Nat.le_of_lt hi)]
    exact h i other hother flaw
  · rw [List.getElem?_append_right hi, List.getElem?_singleton] at hother
    split at hother
    · obtain rfl := Option.some.inj hother
      obtain rfl : i = lines.length := by omega
      rw [readingAt_append (Nat.le_refl _)]
      exact hline flaw
    · exact absurd hother nofun

lemma Sound.placedFaults_eq_nil (h : Sound required lines) (i : Nat) :
    placedFaults required lines i = [] := by
  rw [placedFaults]
  cases hline : lines[i]? with
  | none => rfl
  | some line =>
    simp only
    cases hreading : readingAt required lines i line with
    | malformed flaw => exact absurd hreading (h i line hline flaw)
    | _ => rfl

lemma exists_sound_prefix (required : Bool) (all : List (Except IoCause Text)) :
    ∃ lines rest, all = lines.map .ok ++ rest ∧ Sound required lines ∧
      ∀ x more, rest = x :: more → Stops required lines x := by
  -- from the end, since what is malformed at a line hangs on all the lines before it
  induction all using List.reverseRecOn with
  | nil => exact ⟨[], [], rfl, sound_nil required, nofun⟩
  | append_singleton all x ih =>
    obtain ⟨lines, rest, rfl, hsound, hstops⟩ := ih
    cases rest with
    | cons y more =>
      refine ⟨lines, y :: more ++ [x], by simp, hsound, ?_⟩
      intro z others heq
      obtain ⟨rfl, -⟩ := List.cons.inj heq
      exact hstops y more rfl
    | nil =>
      by_cases hx : Stops required lines x
      · refine ⟨lines, [x], by simp, hsound, ?_⟩
        intro y more heq
        obtain ⟨rfl, -⟩ := List.cons.inj heq
        exact hx
      · cases x with
        | error cause => exact absurd trivial hx
        | ok line =>
          refine ⟨lines ++ [line], [], by simp, sound_snoc hsound ?_, nofun⟩
          exact fun flaw hflaw => hx ⟨flaw, hflaw⟩

lemma separate_sound (h : Sound required lines) :
    separate ((List.range lines.length).flatMap (Reader.itemsAt required none 0 lines)) =
      (rulesOf required lines, []) := by
  have hfaults : (List.range lines.length).flatMap (placedFaults required lines) = [] :=
    List.flatMap_eq_nil_iff.2 fun i _ => h.placedFaults_eq_nil i
  rw [separate_flatMap]
  simp only [separate_itemsAt, hfaults, rulesOf]

end Rule

namespace RuleFile

inductive Told (required : Bool) (path : Path) :
    Except IoCause Opened → List Rule → Option Fault → Prop
  | unopened (cause : IoCause) : Told required path (.error cause) [] (some (.unreadable path cause))
  | whole {opened : Opened} {lines : List Text} : opened.lines = lines.map .ok →
      Rule.Sound required lines → Told required path (.ok opened) (Rule.rulesOf required lines) none
  | unread {opened : Opened} {lines : List Text} {cause : IoCause}
      {rest : List (Except IoCause Text)} : opened.lines = lines.map .ok ++ .error cause :: rest →
      Rule.Sound required lines → Told required path (.ok opened) (Rule.rulesOf required lines)
        (some (.unreadable path cause))
  | malformed {opened : Opened} {lines : List Text} {line : Text} {flaw : LineFlaw}
      {rest : List (Except IoCause Text)} : opened.lines = lines.map .ok ++ .ok line :: rest →
      Rule.Sound required lines →
      Rule.readingAt required lines lines.length line = .malformed flaw →
      Told required path (.ok opened) (Rule.rulesOf required lines)
        (some (.badLine (lines.length + 1) flaw line))

def Flawless (tree : FileTree) (required : Bool) (path : Path) : Prop :=
  ∃ bytes lines, tree.openPath path = .ok (.file bytes) ∧
    Text.byteLines bytes = lines.map some ∧ Rule.Sound required lines

variable {tree : FileTree} {required : Bool} {path : Path}

lemma told_of_items (opened : Opened) : Told required path (.ok opened)
    (Rule.untilFault (Reader.ofLines (some path) required opened.lines).items).1
    (Rule.untilFault (Reader.ofLines (some path) required opened.lines).items).2 := by
  obtain ⟨lines, rest, hlines, hsound, hstops⟩ := Rule.exists_sound_prefix required opened.lines
  have hseparate := Rule.separate_sound hsound
  rw [Reader.ofLines, hlines, Reader.items_append, Rule.untilFault_append (by rw [hseparate]),
    hseparate, Nat.zero_add]
  cases rest with
  | nil =>
    rw [Reader.items_nil, Rule.untilFault, List.append_nil]
    exact .whole (by simpa using hlines) hsound
  | cons x more =>
    cases x with
    | error cause =>
      rw [Reader.items_eq, Reader.next, Reader.nextFrom, Rule.untilFault, List.append_nil]
      exact .unread hlines hsound
    | ok line =>
      obtain ⟨flaw, hflaw⟩ := hstops _ _ rfl
      have hreading := hflaw
      rw [Rule.readingAt, Rule.sectionBefore, List.take_length] at hreading
      rw [Reader.items_cons, hreading, LineReading.items, List.singleton_append, Rule.untilFault,
        List.append_nil]
      exact .malformed hlines hsound hflaw

@[simp] lemma path_read (tree : FileTree) (required : Bool) (path : Path) :
    (read tree required path).path = path := by
  rw [read]
  split <;> rfl

lemma all_isOk_iff {tree : FileTree} {required : Bool} {paths : List Path} :
    (readAll tree required paths).all isOk = true ↔
      ∀ path ∈ paths, (read tree required path).fault = none := by
  simp [readAll, isOk]

lemma read_told (tree : FileTree) (required : Bool) (path : Path) :
    Told required path (tree.openPath path) (read tree required path).rules
      (read tree required path).fault := by
  rw [read, Reader.openFile]
  cases tree.openPath path with
  | error cause => exact .unopened cause
  | ok opened => exact told_of_items opened

lemma linesOf_eq_iff {bytes : Text.Bytes} {lines : List Text} :
    Reader.linesOf bytes = lines.map .ok ↔ Text.byteLines bytes = lines.map some := by
  rw [Reader.linesOf]
  generalize Text.byteLines bytes = all
  induction all generalizing lines with
  | nil => cases lines <;> simp
  | cons line all ih =>
    cases lines with
    | nil => simp
    | cons t lines => cases line <;> simp [ih]

lemma Told.flawless_iff {p : Path} {rules : List Rule} {fault : Option Fault}
    (h : Told required path (tree.openPath p) rules fault) :
    fault = none ↔ Flawless tree required p := by
  constructor
  · rintro rfl
    cases hopen : tree.openPath p with
    | error cause =>
      rw [hopen] at h
      exact absurd h nofun
    | ok opened =>
      rw [hopen] at h
      cases h with
      | @whole _ lines hlines hsound =>
        cases opened with
        | file bytes => exact ⟨bytes, lines, hopen, linesOf_eq_iff.1 hlines, hsound⟩
        | directory => cases lines <;> exact absurd hlines (by simp [Opened.lines])
  · rintro ⟨bytes, all, hopen, hbytes, hall⟩
    rw [hopen] at h
    have hread : Opened.lines (.file bytes) = all.map .ok := linesOf_eq_iff.2 hbytes
    cases h with
    | whole => rfl
    | unread hlines _ =>
      rw [hread] at hlines
      obtain ⟨_, _, -, -, hrest⟩ := List.map_eq_append_iff.1 hlines
      obtain ⟨_, _, -, hline, -⟩ := List.map_eq_cons_iff.1 hrest
      exact absurd hline nofun
    | malformed hlines _ hflaw =>
      rw [hread] at hlines
      obtain ⟨above, _, rfl, habove, hrest⟩ := List.map_eq_append_iff.1 hlines
      obtain ⟨_, _, rfl, hline, -⟩ := List.map_eq_cons_iff.1 hrest
      obtain rfl := Except.ok.inj hline
      obtain rfl := (List.map_inj_right fun _ _ => Except.ok.inj).1 habove
      exact absurd hflaw (hall.next _)

end RuleFile

end LexRules
