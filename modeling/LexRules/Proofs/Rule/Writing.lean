import LexRules.Proofs.Cursor.Escaping
import LexRules.Proofs.Rule.Agreement
import LexRules.Proofs.Text.Blank

/-! Writing rules down. Every list of rules that can come from a definition file can be written as one,
and is read back from it. -/

namespace LexRules

namespace Text

lemma lines_ended {ls : List Text} (h : ∀ line ∈ ls, '\n' ∉ line ∧ line.getLast? ≠ some '\r') :
    lines (ls.flatMap fun line => line ++ ['\n']) = ls := by
  induction ls with
  | nil => rfl
  | cons line ls ih =>
    obtain ⟨hline, hlast⟩ := h line List.mem_cons_self
    rw [List.flatMap_cons, List.append_assoc, List.singleton_append, lines_append hline,
      ih fun other hother => h other (List.mem_cons_of_mem line hother), dropFinal, if_neg hlast]

lemma newline_not_mem_lines {content : Text} {ls : List Text} (h : Lines content ls) :
    ∀ line ∈ ls, '\n' ∉ line := by
  induction h with
  | nil => exact nofun
  | last hline _ =>
    intro line hmem
    rwa [List.mem_singleton.1 hmem]
  | @ended piece rest lines hpiece _ ih =>
    intro line hmem
    rcases List.mem_cons.1 hmem with rfl | hmem
    · rw [dropFinal]
      split
      · exact fun h => hpiece ((List.dropLast_sublist piece).subset h)
      · exact hpiece
    · exact ih line hmem

end Text

namespace Rule

structure Writable (r : Rule) : Prop where
  priority_trimmed : Text.trim r.priority = r.priority
  priority_plain : '/' ∉ r.priority ∧ '\n' ∉ r.priority
  pattern_plain : '\n' ∉ r.pattern
  captures_trimmed : Text.trim r.captures = r.captures
  captures_plain : '\n' ∉ r.captures
  space : ∀ name ∈ r.space, Text.trim name = name ∧ name ≠ [] ∧ '\n' ∉ name

instance (r : Rule) : Decidable r.Writable :=
  decidable_of_iff (Text.trim r.priority = r.priority ∧ ('/' ∉ r.priority ∧ '\n' ∉ r.priority) ∧
      '\n' ∉ r.pattern ∧ Text.trim r.captures = r.captures ∧ '\n' ∉ r.captures ∧
      ∀ name ∈ r.space, Text.trim name = name ∧ name ≠ [] ∧ '\n' ∉ name)
    ⟨fun ⟨h₁, h₂, h₃, h₄, h₅, h₆⟩ => ⟨h₁, h₂, h₃, h₄, h₅, h₆⟩,
      fun ⟨h₁, h₂, h₃, h₄, h₅, h₆⟩ => ⟨h₁, h₂, h₃, h₄, h₅, h₆⟩⟩

structure AllWritable (rules : List Rule) : Prop where
  each : ∀ r ∈ rules, r.Writable
  unsectioned_first : rules.Pairwise fun r s => s.space = none → r.space = none

def FromText (rules : List Rule) : Prop :=
  ∃ required content, parse required content = .ok rules ∨ (diagnose required content).1 = rules

def written (r : Rule) : Text :=
  ' ' :: r.priority ++ '/' :: (Field.doubled '/' r.pattern ++ '/' :: ' ' :: r.captures)

def headingLine (name : Text) : Text := ':' :: ':' :: ' ' :: name

/-- The heading that a rule needs when `space` is in force before it. -/
def heading (space : Option Text) (r : Rule) : List Text :=
  if r.space = space then [] else (r.space.map headingLine).toList

def writtenLines (space : Option Text) : List Rule → List Text
  | [] => []
  | r :: rules => heading space r ++ r.written :: writtenLines r.space rules

def write (rules : List Rule) : Text := (writtenLines none rules).flatMap fun line => line ++ ['\n']

def numbered (space : Option Text) (number : Nat) : List Rule → List Rule
  | [] => []
  | r :: rules => { r with line := number + (heading space r).length + 1 } ::
    numbered r.space (number + (heading space r).length + 1) rules

def unnumbered (r : Rule) : Rule := { r with line := 0 }

lemma unnumbered_numbered (space : Option Text) (number : Nat) (rules : List Rule) :
    (numbered space number rules).map unnumbered = rules.map unnumbered := by
  induction rules generalizing space number with
  | nil => rfl
  | cons r rules ih => simp [numbered, ih, unnumbered]

variable {r : Rule} {rules : List Rule} {space : Option Text} {name line : Text}

section Written

lemma opened_heading (htrim : Text.trim name = name) (hne : name ≠ []) :
    opened? (headingLine name) = some name := by
  have hmark : sectionMark.isPrefixOf (headingLine name) = true := rfl
  have hname : Text.trim ((headingLine name).drop sectionMark.length) = name :=
    (Text.trim_blank_cons (by decide) name).trans htrim
  rw [opened?, hname, if_pos ⟨hmark, hne⟩]

lemma ofLine_written (h : r.Writable) (number : Nat) :
    ofLine r.space number r.written = .ok { r with line := number } := by
  have hpriority : '/' ∉ ' ' :: r.priority := by simp [h.priority_plain.1]
  have hstart : (Cursor.start r.written).remaining =
      (' ' :: r.priority) ++ '/' :: (Field.doubled '/' r.pattern ++ '/' :: ' ' :: r.captures) := rfl
  obtain ⟨c, hc, hremaining⟩ := Cursor.takeField_remaining hstart hpriority
  obtain ⟨d, hd, hrest⟩ := Cursor.takeField_doubled (by simp) hremaining
  have hdelimiter : delimiter = ['/'] := rfl
  rw [ofLine, hdelimiter, hc]
  simp only [hd, hrest, Text.trim_blank_cons (show Text.isBlank ' ' = true by decide),
    h.priority_trimmed, h.captures_trimmed]

lemma reading_written (h : r.Writable) (number : Nat) :
    LineReading.of false r.space number r.written = .rule { r with line := number } := by
  have hblank : Text.allBlank r.written = false := by
    apply List.all_eq_false.2
    exact ⟨'/', by simp [written], by decide⟩
  have hmark : sectionMark.isPrefixOf r.written = false := rfl
  simp [LineReading.of, hblank, hmark, ofLine_written h]

lemma heading_cases (hspace : r.space = none → space = none) :
    heading space r = [] ∧ r.space = space ∨
      ∃ name, r.space = some name ∧ heading space r = [headingLine name] := by
  by_cases heq : r.space = space
  · exact Or.inl ⟨if_pos heq, heq⟩
  · cases hr : r.space with
    | none => exact absurd (hr.trans (hspace hr).symm) heq
    | some name =>
      refine Or.inr ⟨name, rfl, ?_⟩
      rw [heading, if_neg heq, hr]
      rfl

lemma items_heading (h : r.Writable) (hspace : r.space = none → space = none) (number : Nat)
    (ls : List Text) :
    Reader.items ⟨none, false, (heading space r ++ ls).map .ok, space, number⟩ =
      Reader.items ⟨none, false, ls.map .ok, r.space, number + (heading space r).length⟩ := by
  rcases heading_cases hspace with ⟨hnone, heq⟩ | ⟨name, hname, hheading⟩
  · rw [hnone, heq]
    rfl
  · obtain ⟨htrim, hne, -⟩ := h.space name hname
    rw [hheading, hname, List.singleton_append, List.map_cons, Reader.items_cons,
      LineReading.of_opened (opened_heading htrim hne)]
    rfl

lemma items_written (heach : ∀ r ∈ rules, r.Writable)
    (hfirst : rules.Pairwise fun r s => s.space = none → r.space = none)
    (hspace : ∀ r ∈ rules, r.space = none → space = none) (number : Nat) :
    Reader.items ⟨none, false, (writtenLines space rules).map .ok, space, number⟩ =
      (numbered space number rules).map .ok := by
  -- there is no heading that closes a section: a rule without one can only follow its like
  induction rules generalizing space number with
  | nil => exact Reader.items_nil none false space number
  | cons r rules ih =>
    obtain ⟨hbefore, hlater⟩ := List.pairwise_cons.1 hfirst
    have hr := heach r List.mem_cons_self
    rw [writtenLines, items_heading hr (hspace r List.mem_cons_self), List.map_cons, Reader.items_cons,
      reading_written hr]
    have hrest := ih (fun s hs => heach s (List.mem_cons_of_mem r hs)) hlater hbefore
      (number + (heading space r).length + 1)
    exact congrArg (Except.ok _ :: ·) hrest

lemma written_line (h : r.Writable) : '\n' ∉ r.written ∧ r.written.getLast? ≠ some '\r' := by
  constructor
  · have hpattern : '\n' ∉ Field.doubled '/' r.pattern :=
      fun hmem => h.pattern_plain (Field.mem_of_mem_doubled hmem)
    simp [written, h.priority_plain.2, hpattern, h.captures_plain]
  · have hlast := Text.getLast_ne_of_trimmed h.captures_trimmed (c := '\r') (by decide)
    cases hcaptures : r.captures.getLast? with
    | none => simp [written, List.getLast?_append, List.getLast?_cons, hcaptures]
    | some c =>
      rw [hcaptures] at hlast
      simpa [written, List.getLast?_append, List.getLast?_cons, hcaptures] using hlast

lemma heading_line (htrim : Text.trim name = name) (hne : name ≠ []) (hplain : '\n' ∉ name) :
    '\n' ∉ headingLine name ∧ (headingLine name).getLast? ≠ some '\r' := by
  constructor
  · simp [headingLine, hplain]
  · have hlast := Text.getLast_ne_of_trimmed htrim (c := '\r') (by decide)
    rw [List.getLast?_eq_some_getLast hne] at hlast
    simpa [headingLine, List.getLast?_cons, List.getLast?_eq_some_getLast hne] using hlast

lemma writtenLines_line (heach : ∀ r ∈ rules, r.Writable) :
    ∀ line ∈ writtenLines space rules, '\n' ∉ line ∧ line.getLast? ≠ some '\r' := by
  induction rules generalizing space with
  | nil => exact nofun
  | cons r rules ih =>
    have hr := heach r List.mem_cons_self
    intro line hline
    rw [writtenLines, List.mem_append, List.mem_cons] at hline
    rcases hline with hheading | rfl | hline
    · rw [heading] at hheading
      split at hheading
      · exact absurd hheading List.not_mem_nil
      · obtain ⟨name, hname, rfl⟩ := Option.map_eq_some_iff.1 (Option.mem_toList.1 hheading)
        obtain ⟨htrim, hne, hplain⟩ := hr.space name hname
        exact heading_line htrim hne hplain
    · exact written_line hr
    · exact ih (fun s hs => heach s (List.mem_cons_of_mem r hs)) line hline

lemma collect_ok (rules : List Rule) : collect (rules.map .ok) = .ok rules := by
  induction rules with
  | nil => rfl
  | cons r rules ih =>
    rw [List.map_cons, collect, ih]
    rfl

lemma lines_write (h : AllWritable rules) : Text.lines (write rules) = writtenLines none rules :=
  Text.lines_ended (writtenLines_line h.each)

lemma line_of_numbered {number : Nat} (h : r ∈ numbered space number rules) :
    ∃ k, r.line = number + k + 1 ∧ (writtenLines space rules)[k]? = some r.written := by
  induction rules generalizing space number with
  | nil => exact absurd h List.not_mem_nil
  | cons s rules ih =>
    rw [numbered, List.mem_cons] at h
    rw [writtenLines]
    rcases h with rfl | h
    · exact ⟨(heading space s).length, rfl, by simp [written]⟩
    · obtain ⟨k, hline, hwritten⟩ := ih h
      refine ⟨(heading space s).length + (k + 1), by omega, ?_⟩
      rw [List.getElem?_append_right (Nat.le_add_right _ _), Nat.add_sub_cancel_left,
        List.getElem?_cons_succ, hwritten]

lemma parse_write (h : AllWritable rules) : parse false (write rules) = .ok (numbered none 0 rules) := by
  rw [parse, Reader.ofText, lines_write h, Reader.ofLines,
    items_written h.each h.unsectioned_first (fun _ _ _ => rfl), collect_ok]

end Written

section Read

lemma opened_eq_some (h : opened? line = some name) :
    Text.trim name = name ∧ name ≠ [] ∧ ∀ c ∈ name, c ∈ line := by
  rw [opened?] at h
  split at h
  · rename_i hmark
    obtain rfl := Option.some.inj h
    exact ⟨Text.trim_trim _, hmark.2, fun c hc => List.mem_of_mem_drop (Text.mem_of_mem_trim hc)⟩
  · cases h

lemma opened_of_section {lines : List Text} (h : sectionFrom none lines = some name) :
    ∃ line ∈ lines, opened? line = some name := by
  rw [sectionFrom, Option.or_none] at h
  exact List.mem_filterMap.1 (List.mem_of_getLast? h)

lemma ofLine_eq_ok {number : Nat} (h : ofLine space number line = .ok r) :
    Text.trim r.priority = r.priority ∧ '/' ∉ r.priority ∧ Text.trim r.captures = r.captures ∧
      ∀ c, c ∈ r.priority ∨ c ∈ r.pattern ∨ c ∈ r.captures → c ∈ line := by
  rw [ofLine] at h
  split at h
  · cases h
  · rename_i priority c hpriority
    split at h
    · cases h
    · rename_i pattern d hpattern
      obtain rfl := Except.ok.inj h
      obtain ⟨hline, hplain⟩ := Cursor.remaining_takeField hpriority
      have hsublist := (Cursor.takeField_sublist hpattern).subset
      change line = priority ++ '/' :: c.remaining at hline
      refine ⟨Text.trim_trim _, fun hmem => hplain (Text.mem_of_mem_trim hmem), Text.trim_trim _, ?_⟩
      rintro e (he | he | he)
      · simp [hline, Text.mem_of_mem_trim he]
      · simp [hline, hsublist (List.mem_append_left _ he)]
      · simp [hline, hsublist (List.mem_append_right _ (Text.mem_of_mem_trim he))]

lemma ofLine_of_reading {required : Bool} {number : Nat}
    (h : LineReading.of required space number line = .rule r) : ofLine space number line = .ok r := by
  rw [LineReading.of] at h
  split at h
  · cases h
  · split at h
    · simp only at h
      split at h <;> cases h
    · split at h
      · cases h
      · split at h
        · rename_i hline
          rw [hline, LineReading.rule.inj h]
        · cases h

lemma writable_of_placed {required : Bool} {lines : List Text} {i : Nat}
    (hplain : ∀ line ∈ lines, '\n' ∉ line) (h : r ∈ placedRules required lines i) : r.Writable := by
  obtain ⟨-, -, hspace⟩ := mem_placedRules h
  rw [placedRules] at h
  cases hline : lines[i]? with
  | none => simp [hline] at h
  | some line =>
    have hnewline := hplain line (List.mem_of_getElem? hline)
    simp only [hline] at h
    cases hof : readingAt required lines i line with
    | rule s =>
      rw [hof] at h
      obtain rfl := List.mem_singleton.1 h
      obtain ⟨hpriority, hslash, hcaptures, hmem⟩ := ofLine_eq_ok (ofLine_of_reading hof)
      constructor
      case priority_trimmed => exact hpriority
      case priority_plain => exact ⟨hslash, fun hc => hnewline (hmem _ (Or.inl hc))⟩
      case pattern_plain => exact fun hc => hnewline (hmem _ (Or.inr (Or.inl hc)))
      case captures_trimmed => exact hcaptures
      case captures_plain => exact fun hc => hnewline (hmem _ (Or.inr (Or.inr hc)))
      case space =>
        intro name hname
        obtain ⟨opening, hopening, hopened⟩ := opened_of_section (hspace.symm.trans hname)
        obtain ⟨htrim, hne, hchars⟩ := opened_eq_some hopened
        exact ⟨htrim, hne, fun hc => hplain opening (List.mem_of_mem_take hopening) (hchars _ hc)⟩
    | _ =>
      rw [hof] at h
      exact absurd h List.not_mem_nil

lemma sectionBefore_none {lines : List Text} {i j : Nat} (hij : i ≤ j)
    (h : sectionBefore lines j = none) : sectionBefore lines i = none := by
  rw [sectionBefore, sectionFrom, Option.or_none, List.getLast?_eq_none_iff] at h ⊢
  have hprefix := (List.take_prefix_take_left hij (l := lines)).filterMap opened?
  rw [h] at hprefix
  exact List.prefix_nil.1 hprefix

lemma writable_diagnose (required : Bool) (content : Text) :
    AllWritable (diagnose required content).1 := by
  have haccounting := accounting_placed required (Text.lines content)
  rw [diagnose_eq]
  constructor
  · intro r hr
    obtain ⟨i, -, hr⟩ := List.mem_flatMap.1 hr
    exact writable_of_placed (Text.newline_not_mem_lines (Text.lines_spec content)) hr
  · have hincreasing := List.pairwise_map.1 haccounting.rules_increase
    refine hincreasing.imp_of_mem ?_
    intro r s hr hs hlt hnone
    rw [haccounting.space s hs] at hnone
    rw [haccounting.space r hr]
    exact sectionBefore_none (by omega) hnone

lemma FromText.writable (h : FromText rules) : AllWritable rules := by
  obtain ⟨required, content, hparse | rfl⟩ := h
  · exact (parse_eq_ok_iff.1 hparse).2 ▸ writable_diagnose required content
  · exact writable_diagnose required content

end Read

theorem writing_reads_back :
    (∀ rules, AllWritable rules → parse false (write rules) = .ok (numbered none 0 rules) ∧
      ∀ r ∈ numbered none 0 rules, (Text.lines (write rules))[r.line - 1]? = some r.written) ∧
    (∀ rules, FromText rules → AllWritable rules) ∧
    ∀ rules, FromText rules → ∃ again, parse false (write rules) = .ok again ∧
      again.map unnumbered = rules.map unnumbered := by
  refine ⟨fun rules h => ⟨parse_write h, fun r hr => ?_⟩, fun rules h => h.writable, fun rules h => ?_⟩
  · obtain ⟨k, hline, hwritten⟩ := line_of_numbered hr
    rw [lines_write h, hline, Nat.zero_add, Nat.add_sub_cancel, hwritten]
  · exact ⟨_, parse_write h.writable, unnumbered_numbered none 0 rules⟩

/-- Patterns that are slashes or end in one, an empty pattern, and a section named like a mark. -/
def slashes : List Rule :=
  [⟨none, "1".toList, "/a//".toList, "x".toList, 7⟩, ⟨none, [], [], "::".toList, 7⟩,
    ⟨some "::".toList, "::2".toList, "/".toList, "/ /".toList, 7⟩]

theorem writing_reads_back_slashes : AllWritable slashes ∧
    write slashes = " 1///a///// x\n // ::\n:: ::\n ::2//// / /\n".toList ∧
    ∃ again, parse false (write slashes) = .ok again ∧ again.map Rule.line = [1, 2, 4] ∧
      again.map unnumbered = slashes.map unnumbered := by
  have hwritable : AllWritable slashes := ⟨by decide, by decide⟩
  refine ⟨hwritable, by decide, _, (writing_reads_back.1 slashes hwritable).1, by decide, by decide⟩

end Rule

end LexRules
