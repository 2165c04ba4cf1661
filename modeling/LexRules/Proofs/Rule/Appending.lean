import LexRules.Proofs.Rule.Accounting
import LexRules.Proofs.Rule.Draining
import Mathlib

/-! One text behind another. Below lines that are ended, a text reads as it does by itself, with the
section that they leave in force where it has none of its own yet, and with its lines counted on. -/

namespace LexRules

namespace Text

lemma Lines.behind {a : Text} {ls : List Text} (hlines : Lines a ls)
    (h : a = [] ∨ a.getLast? = some '\n') (b : Text) :
    lines (a ++ b) = ls ++ lines b ∧ ls.length = a.count '\n' := by
  obtain ⟨hbehind, hcount⟩ := (pieces_spec '\n' a).behind h b
  rw [lines_unique hlines]
  constructor
  · rw [lines, hbehind, List.map_append, lines, lines]
  · rw [lines, List.length_map, hcount]

end Text

/-- The rule as it reads below `number` lines that leave `space` in force. -/
def Rule.below (space : Option Text) (number : Nat) (r : Rule) : Rule :=
  { r with space := r.space.or space, line := number + r.line }

def Fault.below (number : Nat) : Fault → Fault
  | .badLine n flaw content => .badLine (number + n) flaw content
  | fault => fault

def Reader.belowItem (space : Option Text) (number : Nat) : Reader.Item → Reader.Item
  | .ok r => .ok (r.below space number)
  | .error fault => .error (fault.below number)

variable {required : Bool} {space : Option Text} {number : Nat}

namespace LineReading

def below (space : Option Text) (number : Nat) : LineReading → LineReading
  | .rule r => .rule (r.below space number)
  | reading => reading

lemma items_below (n : Nat) (line : Text) (reading : LineReading) :
    (reading.below space number).items (number + n) line =
      (reading.items n line).map (Reader.belowItem space number) := by
  cases reading <;> rfl

lemma ofLine_below (s : Option Text) (n : Nat) (line : Text) :
    Rule.ofLine (s.or space) (number + n) line =
      (Rule.ofLine s n line).map (Rule.below space number) := by
  rw [Rule.ofLine, Rule.ofLine]
  split
  · rfl
  · split <;> rfl

lemma of_below (required : Bool) (space s : Option Text) (number n : Nat) (line : Text) :
    of required (s.or space) (number + n) line =
      (of (required && space.isNone) s n line).below space number := by
  -- a section above does for the section that is required
  have hwanting : (required && (s.or space).isNone) = ((required && space.isNone) && s.isNone) := by
    cases s <;> simp
  rw [of, of, hwanting, ofLine_below]
  split
  · rfl
  split
  · simp only
    split <;> rfl
  split
  · rfl
  cases Rule.ofLine s n line <;> rfl

end LineReading

namespace Reader

lemma items_below (path : Option Path) (required : Bool) (space s : Option Text) (number n : Nat)
    (lines : List Text) :
    items ⟨path, required, lines.map .ok, s.or space, number + n⟩ =
      (items ⟨path, required && space.isNone, lines.map .ok, s, n⟩).map (belowItem space number) := by
  induction lines generalizing s n with
  | nil => rw [List.map_nil, items_nil, items_nil, List.map_nil]
  | cons line lines ih =>
    rw [List.map_cons, items_cons, items_cons, List.map_append, Nat.add_assoc, LineReading.of_below,
      LineReading.items_below, ← LineReading.of_below, LineReading.sectionAfter_of,
      LineReading.sectionAfter_of, ← Option.or_assoc, ih]

end Reader

def Rule.sectionBehind (content : Text) : Option Text := sectionFrom none (Text.lines content)

namespace Reader

lemma items_behind {a : Text} (h : a = [] ∨ a.getLast? = some '\n') (required : Bool) (b : Text) :
    (ofText required (a ++ b)).items = (ofText required a).items ++
      (ofText (required && (Rule.sectionBehind a).isNone) b).items.map
        (belowItem (Rule.sectionBehind a) (a.count '\n')) := by
  obtain ⟨hlines, hcount⟩ := (Text.lines_spec a).behind h b
  have hbelow := items_below none required (Rule.sectionBehind a) none (a.count '\n') 0 (Text.lines b)
  rw [Option.none_or, Nat.add_zero] at hbelow
  rw [ofText, ofLines, hlines, List.map_append, items_append, ← items_lines none, Nat.zero_add, hcount]
  exact congrArg _ hbelow

lemma space_after (required : Bool) (a : Text) {n : Nat} (hn : (Text.lines a).length < n) :
    ((ofText required a).after n).space = Rule.sectionBehind a := by
  -- each answer takes a line, so that many answers leave none to read
  have hstreams : (ofLines none required ((Text.lines a).map .ok ++ [])).Streams (Text.lines a) [] :=
    streams_ofLines none required (Text.lines a) nofun (items_nil none required) nofun
  rw [List.append_nil] at hstreams
  have hspace := (hstreams.space n).2
  have hgiven := length_given_le required (Text.lines a)
  rw [hstreams.settles n (Nat.lt_of_le_of_lt hgiven hn), List.take_length] at hspace
  exact hspace

end Reader

namespace Rule

lemma separate_append (items more : List Reader.Item) :
    separate (items ++ more) =
      ((separate items).1 ++ (separate more).1, (separate items).2 ++ (separate more).2) := by
  simp [separate]

lemma separate_below (items : List Reader.Item) :
    separate (items.map (Reader.belowItem space number)) =
      ((separate items).1.map (below space number), (separate items).2.map (Fault.below number)) :=
  separate_map (fun _ => rfl) (fun _ => rfl) items

structure Continues (required : Bool) (a b : Text) : Prop where
  /-- The section that a reader says is in force once it has answered all of `a`. -/
  space : ∀ n, (Text.lines a).length < n →
    ((Reader.ofText required a).after n).space = sectionBehind a
  rules : (diagnose required (a ++ b)).1 = (diagnose required a).1 ++
    (diagnose (required && (sectionBehind a).isNone) b).1.map
      (below (sectionBehind a) (a.count '\n'))
  faults : (diagnose required (a ++ b)).2 = (diagnose required a).2 ++
    (diagnose (required && (sectionBehind a).isNone) b).2.map (Fault.below (a.count '\n'))

theorem continues_ended {a : Text} (h : a = [] ∨ a.getLast? = some '\n') (required : Bool) (b : Text) :
    Continues required a b := by
  have hdiagnose : diagnose required (a ++ b) = _ := congrArg separate (Reader.items_behind h required b)
  rw [separate_append, separate_below] at hdiagnose
  exact ⟨fun n => Reader.space_after required a, congrArg Prod.fst hdiagnose,
    congrArg Prod.snd hdiagnose⟩

theorem continues_opened :
    ("1/a/x\r\n:: s\r\n".toList = [] ∨ "1/a/x\r\n:: s\r\n".toList.getLast? = some '\n') ∧
      Continues true "1/a/x\r\n:: s\r\n".toList "2/b/y\nbad".toList ∧
      diagnose true ("1/a/x\r\n:: s\r\n".toList ++ "2/b/y\nbad".toList) =
        ([⟨some ['s'], ['2'], ['b'], ['y'], 3⟩],
          [.badLine 1 .ruleBeforeNamespace "1/a/x".toList, .badLine 4 .openPriority "bad".toList]) := by
  have hended : "1/a/x\r\n:: s\r\n".toList.getLast? = some '\n' := by decide
  refine ⟨Or.inr hended, continues_ended (Or.inr hended) true _, ?_⟩
  rw [diagnose_eq]
  cbv

end Rule

end LexRules
