import LexRules.Proofs.Rule.Accounting
import LexRules.Proofs.Rule.Grammar
import LexRules.Proofs.Text.Blank
import LexRules.Proofs.Text.Split

/-! White space at the ends of lines. Whatever is put there, carriage returns among it, a text says the
same rules at the same lines and is refused for the same reasons. -/

namespace LexRules

namespace Text

structure Blanks where
  text : Text
  blank : allBlank text = true
  newline_not_mem : '\n' ∉ text

/-- A text with white space put before each of its line feeds and at its end, the first of `w` before
the first line feed. -/
def padded (w : Nat → Blanks) : Text → Text
  | [] => (w 0).text
  | c :: t =>
    if c = '\n' then (w 0).text ++ '\n' :: padded (fun i => w (i + 1)) t else c :: padded w t

def withReturns (t : Text) : Text := t.flatMap fun c => if c = '\n' then ['\r', '\n'] else [c]

/-- What stands between the line feeds of a text, without white space at the ends. -/
def bareLines (t : Text) : List Text := (splitOn '\n' t).map trimEnd

variable {c : Char} {t w : Text}

lemma bareLines_of_not_mem (h : '\n' ∉ t) : bareLines t = [trimEnd t] := by
  rw [bareLines, splitOn_of_not_mem h, List.map_singleton]

lemma bareLines_append (h : '\n' ∉ t) (rest : Text) :
    bareLines (t ++ '\n' :: rest) = trimEnd t :: bareLines rest := by
  rw [bareLines, splitOn_append, splitOn_of_not_mem h, List.map_append, List.map_singleton,
    List.singleton_append, bareLines]

lemma bareLines_cons (h : c ≠ '\n') (t : Text) :
    bareLines (c :: t) = (bareLines t).modifyHead fun line => trimEnd (c :: line) := by
  rw [bareLines, bareLines, splitOn, if_neg h]
  cases hpieces : splitOn '\n' t with
  | nil => exact absurd hpieces (splitOn_ne_nil '\n' t)
  | cons piece pieces =>
    simp only [List.map_cons, List.modifyHead_cons]
    exact congrArg (· :: _) (trimEnd_append_trimEnd [c] piece).symm

lemma bareLines_padded (w : Nat → Blanks) (t : Text) : bareLines (padded w t) = bareLines t := by
  induction t generalizing w with
  | nil =>
    rw [padded, bareLines_of_not_mem (w 0).newline_not_mem, bareLines_of_not_mem List.not_mem_nil]
    exact congrArg (fun line => [line]) (trimEnd_append_blank [] (w 0).blank)
  | cons c t ih =>
    rw [padded]
    split
    · rename_i hc
      subst hc
      rw [bareLines_append (w 0).newline_not_mem, ih]
      exact (congrArg (· :: bareLines t) (trimEnd_append_blank [] (w 0).blank)).trans
        (bareLines_append List.not_mem_nil t).symm
    · rename_i hc
      rw [bareLines_cons hc, bareLines_cons hc, ih]

lemma exists_padded_withReturns (t : Text) : ∃ w, withReturns t = padded w t := by
  have hnil : allBlank [] = true ∧ '\n' ∉ ([] : Text) := by decide
  have hreturn : allBlank ['\r'] = true ∧ '\n' ∉ ['\r'] := by decide
  induction t with
  | nil => exact ⟨fun _ => ⟨[], hnil.1, hnil.2⟩, rfl⟩
  | cons c t ih =>
    obtain ⟨w, hw⟩ := ih
    by_cases hc : c = '\n'
    · refine ⟨fun i => i.casesOn ⟨['\r'], hreturn.1, hreturn.2⟩ w, ?_⟩
      rw [withReturns, List.flatMap_cons, ← withReturns, hw, padded, if_pos hc, if_pos hc]
      rfl
    · refine ⟨w, ?_⟩
      rw [withReturns, List.flatMap_cons, ← withReturns, hw, padded, if_neg hc, if_neg hc]
      rfl

lemma Lines.bare {ls : List Text} (h : Lines t ls) :
    ∃ rest, (∀ line ∈ rest, allBlank line = true) ∧ bareLines t = ls.map trimEnd ++ rest := by
  induction h with
  | nil => exact ⟨[[]], by simp [allBlank], rfl⟩
  | last hline _ => exact ⟨[], List.forall_mem_nil _, bareLines_of_not_mem hline⟩
  | ended hpiece _ ih =>
    obtain ⟨rest, hrest, hbare⟩ := ih
    refine ⟨rest, hrest, ?_⟩
    rw [bareLines_append hpiece, hbare, List.map_cons, trimEnd_dropFinal (by decide), List.cons_append]

lemma not_mem_of_allBlank (h : allBlank w = true) (hc : isBlank c = false) : c ∉ w := fun hmem =>
  absurd (List.all_eq_true.1 h c hmem) (by rw [hc]; exact nofun)

end Text

/-- The fault with the line that it quotes cut off where only white space follows. -/
def Fault.trimmed : Fault → Fault
  | .badLine number flaw line => .badLine number flaw (Text.trimEnd line)
  | fault => fault

variable {required : Bool} {space : Option Text} {number : Nat} {line w : Text}

namespace Rule

variable {p e c : Text}

lemma slash_not_mem_blank (hw : Text.allBlank w = true) : '/' ∉ w :=
  Text.not_mem_of_allBlank hw (by decide)

lemma Form.append_blank (h : Form line p e c) (hw : Text.allBlank w = true) :
    Form (line ++ w) p e (c ++ w) := by
  refine ⟨by simp [h.line_eq], h.priority_plain, h.pattern_pairs, ?_⟩
  cases c with
  | nil => exact fun hhead => slash_not_mem_blank hw (List.mem_of_mem_head? hhead)
  | cons a c => exact h.captures_head

lemma Form.of_append_blank (h : Form (line ++ w) p e c) (hw : Text.allBlank w = true) :
    ∃ c, Form line p e c := by
  have hline : line ++ w = (p ++ '/' :: e) ++ '/' :: c := by simp [h.line_eq]
  rcases List.append_eq_append_iff.1 hline with ⟨more, -, rfl⟩ | ⟨more, hfront, hmore⟩
  · exact absurd (List.mem_append_right more List.mem_cons_self) (slash_not_mem_blank hw)
  cases more with
  | nil =>
    rw [List.nil_append] at hmore
    exact absurd (hmore ▸ List.mem_cons_self) (slash_not_mem_blank hw)
  | cons a more =>
    obtain ⟨rfl, rfl⟩ := List.cons.inj hmore
    refine ⟨more, by simp [hfront], h.priority_plain, h.pattern_pairs, fun hhead => ?_⟩
    exact h.captures_head (by simp [List.head?_append, hhead])

lemma ofLine_append_blank (hw : Text.allBlank w = true) (space : Option Text) (number : Nat)
    (line : Text) : ofLine space number (line ++ w) = ofLine space number line := by
  have hslash : '/' ∈ line ++ w ↔ '/' ∈ line := by simp [slash_not_mem_blank hw]
  rcases ofLine_cases space number line with ⟨p, e, c, hform, hline⟩ | ⟨hnone, hcases⟩
  · rw [hline, (hform.append_blank hw).ofLine_eq, ofFields, ofFields, Text.trim_append_blank c hw]
  rcases ofLine_cases space number (line ++ w) with ⟨p, e, c, hform, -⟩ | ⟨-, hothers⟩
  · obtain ⟨c, hform⟩ := hform.of_append_blank hw
    exact absurd ⟨p, e, c, hform⟩ hnone
  rw [hslash] at hothers
  rcases hcases with ⟨hplain, hline⟩ | ⟨hmem, hline⟩
  · rw [hline, (hothers.resolve_right fun h => hplain h.1).2]
  · rw [hline, (hothers.resolve_left fun h => h.1 hmem).2]

end Rule

namespace LineReading

lemma mark_append_blank (hw : Text.allBlank w = true) (line : Text) :
    Rule.sectionMark <+: line ++ w ↔ Rule.sectionMark <+: line := by
  refine ⟨fun h => ?_, fun h => h.trans (List.prefix_append line w)⟩
  rcases List.prefix_or_prefix_of_prefix h (List.prefix_append line w) with hmark | ⟨rest, hmark⟩
  · exact hmark
  -- the blanks would have to begin with a part of the mark
  cases rest with
  | nil =>
    rw [List.append_nil] at hmark
    exact ⟨[], (List.append_nil _).trans hmark.symm⟩
  | cons a rest =>
    rw [← hmark, List.prefix_append_right_inj] at h
    have ha : a ∈ Rule.sectionMark := by simp [← hmark]
    have hcolon : a = ':' := by simpa [Rule.sectionMark] using ha
    exact absurd (h.subset List.mem_cons_self) (Text.not_mem_of_allBlank hw (by rw [hcolon]; decide))

lemma of_append_blank (hw : Text.allBlank w = true) (required : Bool) (space : Option Text)
    (number : Nat) (line : Text) :
    of required space number (line ++ w) = of required space number line := by
  have hblank : Text.allBlank (line ++ w) = Text.allBlank line := by
    rw [Text.allBlank, List.all_append, ← Text.allBlank, ← Text.allBlank, hw, Bool.and_true]
  have hmark : Rule.sectionMark.isPrefixOf (line ++ w) = Rule.sectionMark.isPrefixOf line := by
    rw [Bool.eq_iff_iff, List.isPrefixOf_iff_prefix, List.isPrefixOf_iff_prefix]
    exact mark_append_blank hw line
  rw [of, of, hblank, hmark, Rule.ofLine_append_blank hw]
  split
  · rfl
  split
  · rename_i hprefix
    have hlength := (List.isPrefixOf_iff_prefix.1 hprefix).length_le
    rw [List.drop_append_of_le_length hlength, Text.trim_append_blank _ hw]
  · rfl

lemma of_trimEnd (required : Bool) (space : Option Text) (number : Nat) (line : Text) :
    of required space number (Text.trimEnd line) = of required space number line := by
  obtain ⟨w, hw, hline⟩ := Text.exists_blank_end line
  conv_rhs => rw [← hline, of_append_blank hw]

lemma items_trimEnd (number : Nat) (line : Text) (reading : LineReading) :
    reading.items number (Text.trimEnd line) =
      (reading.items number line).map (Except.mapError Fault.trimmed) := by
  cases reading <;> rfl

end LineReading

namespace Reader

lemma items_trimmed (path : Option Path) (required : Bool) (space : Option Text) (number : Nat)
    (lines : List Text) :
    items ⟨path, required, (lines.map Text.trimEnd).map .ok, space, number⟩ =
      (items ⟨path, required, lines.map .ok, space, number⟩).map (Except.mapError Fault.trimmed) := by
  induction lines generalizing space number with
  | nil => rw [List.map_nil, List.map_nil, items_nil, List.map_nil]
  | cons line lines ih =>
    simp only [List.map_cons, items_cons, LineReading.of_trimEnd, LineReading.items_trimEnd,
      List.map_append, ih]

lemma items_blank {lines : List Text} (h : ∀ line ∈ lines, Text.allBlank line = true)
    (path : Option Path) (required : Bool) (space : Option Text) (number : Nat) :
    items ⟨path, required, lines.map .ok, space, number⟩ = [] := by
  induction lines generalizing space number with
  | nil => exact items_nil path required space number
  | cons line lines ih =>
    obtain ⟨hline, hlines⟩ := List.forall_mem_cons.1 h
    rw [List.map_cons, items_cons, LineReading.of_blank hline, ih hlines]
    rfl

lemma items_bareLines (required : Bool) (content : Text) :
    items ⟨none, required, (Text.bareLines content).map .ok, none, 0⟩ =
      (ofText required content).items.map (Except.mapError Fault.trimmed) := by
  obtain ⟨rest, hrest, hbare⟩ := (Text.lines_spec content).bare
  rw [hbare, List.map_append, items_append, ← items_lines none, items_trimmed, items_blank hrest,
    List.append_nil]
  rfl

end Reader

namespace Rule

/-- Texts that say the same rules and are refused at the same lines for the same reasons. The lines that
are quoted then differ in white space at their ends at most. -/
structure Alike (required : Bool) (content other : Text) : Prop where
  rules : (diagnose required other).1 = (diagnose required content).1
  faults : (diagnose required other).2.map Fault.trimmed =
    (diagnose required content).2.map Fault.trimmed

lemma alike_of_bareLines {content other : Text} (h : Text.bareLines other = Text.bareLines content)
    (required : Bool) : Alike required content other := by
  have hitems := congrArg (fun lines => separate
    (Reader.items ⟨none, required, lines.map .ok, none, 0⟩)) h
  have hmap := separate_map (f := Except.mapError Fault.trimmed) (g := id) (fun _ => rfl) fun _ => rfl
  simp only [Reader.items_bareLines, hmap, List.map_id, Prod.mk.injEq] at hitems
  exact ⟨hitems.1, hitems.2⟩

theorem alike_padded (required : Bool) (content : Text) :
    (∀ w, Alike required content (Text.padded w content)) ∧
      Alike required content (Text.withReturns content) := by
  have hpadded : ∀ w, Alike required content (Text.padded w content) := fun w =>
    alike_of_bareLines (Text.bareLines_padded w content) required
  refine ⟨hpadded, ?_⟩
  obtain ⟨w, hw⟩ := Text.exists_padded_withReturns content
  rw [hw]
  exact hpadded w

end Rule

end LexRules
