import LexRules.Proofs.Cursor.Escaping
import LexRules.Rule

/-! The grammar of a rule line. A line says at most one rule, whatever runs of slashes stand where its
fields meet, and a line that says none is refused for the first slash that it lacks. -/

namespace LexRules

namespace Field

inductive Pairs (sep : Char) : Text → Prop
  | nil : Pairs sep []
  | plain {c : Char} {t : Text} : c ≠ sep → Pairs sep t → Pairs sep (c :: t)
  | pair {t : Text} : Pairs sep t → Pairs sep (sep :: sep :: t)

variable {sep : Char} {t : Text}

lemma doubled_cons (sep c : Char) (t : Text) :
    doubled sep (c :: t) = (if c = sep then [sep, sep] else [c]) ++ doubled sep t := rfl

lemma collapse_doubled (sep : Char) (t : Text) : collapse [sep] (doubled sep t) = t := by
  induction t with
  | nil => simp [doubled, collapse]
  | cons c t ih =>
    rw [doubled_cons]
    split
    · rename_i hc
      have hpair := collapse_double (List.cons_ne_nil sep []) (doubled sep t)
      rw [ih] at hpair
      rw [hc]
      exact hpair
    · rename_i hc
      have hclear : Clear [sep] [c] (doubled sep t) := clear_singleton_iff.2 (by simpa using Ne.symm hc)
      rw [collapse_clear hclear, ih, List.singleton_append]

lemma pairs_doubled (sep : Char) (t : Text) : Pairs sep (doubled sep t) := by
  induction t with
  | nil => exact .nil
  | cons c t ih =>
    rw [doubled_cons]
    split
    · exact .pair ih
    · rename_i hc
      exact .plain hc ih

lemma exists_doubled (h : Pairs sep t) : ∃ s, t = doubled sep s := by
  induction h with
  | nil => exact ⟨[], rfl⟩
  | @plain c t hc _ ih =>
    obtain ⟨s, rfl⟩ := ih
    exact ⟨c :: s, by rw [doubled_cons, if_neg hc, List.singleton_append]⟩
  | @pair t _ ih =>
    obtain ⟨s, rfl⟩ := ih
    exact ⟨sep :: s, by rw [doubled_cons, if_pos rfl, List.cons_append, List.singleton_append]⟩

lemma Pairs.doubled_collapse (h : Pairs sep t) : doubled sep (collapse [sep] t) = t := by
  obtain ⟨s, rfl⟩ := exists_doubled h
  rw [collapse_doubled]

lemma splits_singleton_iff {s rest : Text} :
    Splits [sep] s t rest ↔ s = doubled sep t ++ sep :: rest ∧ rest.head? ≠ some sep := by
  have hhead : [sep] <+: rest ↔ rest.head? = some sep := by
    cases rest <;> simp [eq_comm]
  rw [Splits, escaped_singleton, hhead, List.append_assoc, List.singleton_append]

end Field

namespace Rule

structure Form (line priority pattern captures : Text) : Prop where
  line_eq : line = priority ++ '/' :: (pattern ++ '/' :: captures)
  priority_plain : '/' ∉ priority
  pattern_pairs : Field.Pairs '/' pattern
  captures_head : captures.head? ≠ some '/'

def ofFields (space : Option Text) (number : Nat) (priority pattern captures : Text) : Rule :=
  ⟨space, Text.trim priority, Field.collapse delimiter pattern, Text.trim captures, number⟩

variable {space : Option Text} {number : Nat} {line p e c : Text} {r : Rule}

lemma delimiter_eq : delimiter = ['/'] := rfl

lemma Form.splits (h : Form line p e c) :
    Field.Splits ['/'] (e ++ '/' :: c) (Field.collapse ['/'] e) c := by
  rw [Field.splits_singleton_iff, h.pattern_pairs.doubled_collapse]
  exact ⟨rfl, h.captures_head⟩

lemma Form.ofLine_eq (h : Form line p e c) (space : Option Text) (number : Nat) :
    ofLine space number line = .ok (ofFields space number p e c) := by
  obtain ⟨next, hnext, hremaining⟩ := Cursor.takeField_remaining (c := Cursor.start line)
    h.line_eq h.priority_plain
  have hsplits := h.splits
  rw [← hremaining] at hsplits
  obtain ⟨last, hlast, hrest⟩ :=
    Cursor.takeField_of_splits (by simp) (Field.unbordered_singleton '/') hsplits
  rw [ofLine, ofFields, delimiter_eq, hnext]
  simp only [hlast, hrest]

lemma exists_form (h : ofLine space number line = .ok r) :
    ∃ p e c, Form line p e c ∧ r = ofFields space number p e c := by
  rw [ofLine] at h
  split at h
  · exact absurd h nofun
  · rename_i priority next hpriority
    split at h
    · exact absurd h nofun
    · rename_i pattern last hpattern
      obtain rfl := Except.ok.inj h
      obtain ⟨hline, hplain⟩ := Cursor.remaining_takeField hpriority
      obtain ⟨hremaining, hhead⟩ := Field.splits_singleton_iff.1
        (Cursor.splits_of_takeField (by simp) (Field.unbordered_singleton '/') hpattern)
      rw [hremaining] at hline
      refine ⟨priority, Field.doubled '/' pattern, last.remaining, ?_, ?_⟩
      · exact ⟨hline, hplain, Field.pairs_doubled '/' pattern, hhead⟩
      · rw [ofFields, delimiter_eq, Field.collapse_doubled]

lemma Form.unique {p' e' c' : Text} (h : Form line p e c) (h' : Form line p' e' c') :
    p = p' ∧ e = e' ∧ c = c' := by
  -- the first slash ends the priority; behind it, pairs tell which slash is the single one
  have hfirst := Field.splitAtFirst_eq_some_iff.2 ⟨h.line_eq, h.priority_plain⟩
  rw [Field.splitAtFirst_eq_some_iff.2 ⟨h'.line_eq, h'.priority_plain⟩] at hfirst
  obtain ⟨rfl, hrest⟩ := Prod.mk.inj (Option.some.inj hfirst)
  have hborder := Field.unbordered_singleton '/'
  have hread := (Field.splits_iff_read (by simp) hborder).1 h.splits
  rw [← hrest, (Field.splits_iff_read (by simp) hborder).1 h'.splits] at hread
  obtain ⟨hpattern, -, hcaptures⟩ := Field.mk.inj hread
  refine ⟨rfl, ?_, hcaptures.symm⟩
  rw [← h.pattern_pairs.doubled_collapse, ← hpattern, h'.pattern_pairs.doubled_collapse]

lemma ofLine_cases (space : Option Text) (number : Nat) (line : Text) :
    (∃ p e c, Form line p e c ∧ ofLine space number line = .ok (ofFields space number p e c)) ∨
      (¬ ∃ p e c, Form line p e c) ∧
        (('/' ∉ line ∧ ofLine space number line = .error .openPriority) ∨
          '/' ∈ line ∧ ofLine space number line = .error .openPattern) := by
  cases hline : ofLine space number line with
  | ok r =>
    obtain ⟨p, e, c, hform, rfl⟩ := exists_form hline
    exact Or.inl ⟨p, e, c, hform, rfl⟩
  | error flaw =>
    refine Or.inr ⟨?_, ?_⟩
    · rintro ⟨p, e, c, hform⟩
      rw [hform.ofLine_eq] at hline
      exact absurd hline nofun
    · by_cases hslash : '/' ∈ line
      · obtain ⟨p, rest, heq, hp⟩ := List.eq_append_cons_of_mem hslash
        obtain ⟨next, hnext, -⟩ := Cursor.takeField_remaining (c := Cursor.start line) heq hp
        rw [ofLine, delimiter_eq, hnext] at hline
        simp only at hline
        split at hline
        · exact Or.inr ⟨hslash, congrArg _ (Except.error.inj hline).symm⟩
        · exact absurd hline nofun
      · have hnone := Cursor.takeField_eq_none (c := Cursor.start line) hslash
        rw [ofLine, delimiter_eq, hnone] at hline
        exact Or.inl ⟨hslash, congrArg _ (Except.error.inj hline).symm⟩

end Rule

namespace LineReading

def Refuses (reading : LineReading) (reason : String) : Prop :=
  ∃ flaw, reading = .malformed flaw ∧ flaw.message = reason

lemma refuses_malformed_iff {flaw : LineFlaw} {reason : String} :
    (malformed flaw).Refuses reason ↔ flaw.message = reason := by
  constructor
  · rintro ⟨other, hother, hreason⟩
    rwa [LineReading.malformed.inj hother]
  · exact fun h => ⟨flaw, rfl, h⟩

lemma not_refuses_rule (r : Rule) (reason : String) : ¬ (rule r).Refuses reason :=
  fun ⟨_, heq, _⟩ => absurd heq nofun

structure Ruled (space : Option Text) (number : Nat) (line : Text) (reading : LineReading) : Prop where
  rule_iff : ∀ r, reading = .rule r ↔
    ∃ p e c, Rule.Form line p e c ∧ r = Rule.ofFields space number p e c
  unique : ∀ p e c p' e' c', Rule.Form line p e c → Rule.Form line p' e' c' → p = p' ∧ e = e' ∧ c = c'
  open_priority_iff : reading.Refuses "missing `/` after the priority" ↔ '/' ∉ line
  open_pattern_iff : reading.Refuses "missing `/` after the pattern" ↔
    '/' ∈ line ∧ ¬ ∃ p e c, Rule.Form line p e c

lemma ruled_rule {space : Option Text} {number : Nat} {line p e c : Text} (h : Rule.Form line p e c) :
    Ruled space number line (.rule (Rule.ofFields space number p e c)) where
  rule_iff r := by
    constructor
    · exact fun heq => ⟨p, e, c, h, (LineReading.rule.inj heq).symm⟩
    · rintro ⟨p', e', c', h', rfl⟩
      obtain ⟨rfl, rfl, rfl⟩ := h.unique h'
      rfl
  unique _ _ _ _ _ _ h h' := h.unique h'
  open_priority_iff := iff_of_false (not_refuses_rule _ _) (not_not_intro (by simp [h.line_eq]))
  open_pattern_iff := iff_of_false (not_refuses_rule _ _) fun hnone => hnone.2 ⟨p, e, c, h⟩

lemma ruled_malformed {space : Option Text} {number : Nat} {line : Text} {flaw : LineFlaw}
    (hnone : ¬ ∃ p e c, Rule.Form line p e c)
    (hpriority : flaw.message = "missing `/` after the priority" ↔ '/' ∉ line)
    (hpattern : flaw.message = "missing `/` after the pattern" ↔ '/' ∈ line) :
    Ruled space number line (.malformed flaw) where
  rule_iff r := iff_of_false nofun fun ⟨p, e, c, h, _⟩ => hnone ⟨p, e, c, h⟩
  unique _ _ _ _ _ _ h h' := h.unique h'
  open_priority_iff := refuses_malformed_iff.trans hpriority
  open_pattern_iff := by rw [refuses_malformed_iff, hpattern, and_iff_left hnone]

lemma of_ofLine {required : Bool} {space : Option Text} {line : Text}
    (hblank : Text.allBlank line = false) (hmark : ¬ Rule.sectionMark <+: line)
    (hspace : required = true → space ≠ none) (number : Nat) :
    of required space number line = match Rule.ofLine space number line with
      | .ok r => .rule r
      | .error flaw => .malformed flaw := by
  have hplain : ¬ Rule.sectionMark.isPrefixOf line = true := by rwa [List.isPrefixOf_iff_prefix]
  have hallowed : ¬ (required && space.isNone) = true := by
    rw [Bool.and_eq_true, Option.isNone_iff_eq_none]
    exact fun hboth => hspace hboth.1 hboth.2
  exact (if_neg (ne_true_of_eq_false hblank)).trans ((if_neg hplain).trans (if_neg hallowed))

theorem ruled_of {required : Bool} {space : Option Text} {line : Text}
    (hblank : Text.allBlank line = false) (hmark : ¬ Rule.sectionMark <+: line)
    (hspace : required = true → space ≠ none) (number : Nat) :
    Ruled space number line (of required space number line) := by
  rw [of_ofLine hblank hmark hspace]
  rcases Rule.ofLine_cases space number line with
    ⟨p, e, c, hform, hline⟩ | ⟨hnone, ⟨hslash, hline⟩ | ⟨hslash, hline⟩⟩
  · rw [hline]
    exact ruled_rule hform
  · rw [hline]
    exact ruled_malformed hnone (iff_of_true rfl hslash) (iff_of_false (by decide) hslash)
  · rw [hline]
    exact ruled_malformed hnone (iff_of_false (by decide) (not_not_intro hslash)) (iff_of_true rfl hslash)

/-- Two runs of three slashes: the first ends the priority before a pair, the second ends the pattern
behind one. -/
theorem ruled_of_runs :
    Text.allBlank " 5///x///y ".toList = false ∧ ¬ Rule.sectionMark <+: " 5///x///y ".toList ∧
      (true = true → some ['n'] ≠ none) ∧
      Ruled (some ['n']) 3 " 5///x///y ".toList (of true (some ['n']) 3 " 5///x///y ".toList) ∧
      of true (some ['n']) 3 " 5///x///y ".toList = .rule ⟨some ['n'], ['5'], "/x/".toList, ['y'], 3⟩ := by
  have hmark : ¬ Rule.sectionMark <+: " 5///x///y ".toList := by decide
  have hruled : Ruled (some ['n']) 3 " 5///x///y ".toList (of true (some ['n']) 3 " 5///x///y ".toList) :=
    ruled_of (by decide) hmark (by decide) 3
  have hform : Rule.Form " 5///x///y ".toList " 5".toList "//x//".toList "y ".toList :=
    ⟨by decide, by decide, Field.pairs_doubled '/' "/x/".toList, by decide⟩
  have hpattern : Field.collapse Rule.delimiter "//x//".toList = "/x/".toList :=
    Field.collapse_doubled '/' "/x/".toList
  refine ⟨by decide, hmark, by decide, hruled, (hruled.rule_iff _).2 ⟨_, _, _, hform, ?_⟩⟩
  rw [Rule.ofFields, hpattern]
  rfl

end LineReading

end LexRules
