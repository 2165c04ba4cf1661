import LexRules.Proofs.Rule.Agreement

/-! Requiring that every rule stands in a section. Two readings of one text, with the demand and without
it, open the same sections and part only above the first of them. -/

namespace LexRules

def Fault.Blames (n : Nat) (reason : String) (fault : Fault) : Prop :=
  ∃ flaw line, fault = .badLine n flaw line ∧ flaw.message = reason

namespace LineReading

lemma of_in_section {space : Option Text} (h : space ≠ none) (required : Bool) (number : Nat)
    (line : Text) : of required space number line = of false space number line := by
  obtain ⟨name, rfl⟩ := Option.ne_none_iff_exists'.1 h
  rw [of, of, Option.isNone_some, Bool.and_false, Bool.and_false]

/-- What a line above every section reads as with the demand, and what without it. -/
inductive Stricter : LineReading → LineReading → Prop
  | blank : Stricter .blank .blank
  | opens (name : Text) : Stricter (.opens name) (.opens name)
  | unnamed : Stricter (.malformed .unnamedNamespace) (.malformed .unnamedNamespace)
  | rule (r : Rule) : Stricter (.malformed .ruleBeforeNamespace) (.rule r)
  | malformed (flaw : LineFlaw) : Stricter (.malformed .ruleBeforeNamespace) (.malformed flaw)

lemma stricter_of (number : Nat) (line : Text) :
    Stricter (of true none number line) (of false none number line) := by
  rw [of, of]
  split
  · exact .blank
  split
  · simp only
    split
    · exact .unnamed
    · exact .opens _
  -- the demand is looked at first: it refuses a line that is a rule and one that is none alike
  simp only [Option.isNone_none, Bool.and_true, if_true, Bool.false_eq_true, if_false]
  cases Rule.ofLine none number line with
  | ok r => exact .rule r
  | error flaw => exact .malformed flaw

variable {s t : LineReading} {n : Nat} {line : Text}

lemma Stricter.rules_eq_nil (h : Stricter s t) : s.rules = [] := by
  cases h <;> rfl

lemma Stricter.line_faults (h : Stricter s t) (hline : ∀ r ∈ t.rules, r.line = n) :
    (s.faults n line).map Fault.line? = (t.faults n line).map Fault.line? ++
      t.rules.map fun r => some r.line := by
  cases h with
  | rule r =>
    have hr : r.line = n := hline r List.mem_cons_self
    rw [← hr]
    rfl
  | _ => rfl

lemma Stricter.mem_faults (h : Stricter s t) {fault : Fault} (hmem : fault ∈ s.faults n line) :
    (fault ∈ t.faults n line ∧ fault.Blames n "namespace declaration without a name") ∨
      fault.Blames n "rule declared before any namespace" := by
  cases h with
  | blank | opens => exact absurd hmem List.not_mem_nil
  | unnamed => exact Or.inl ⟨hmem, _, line, List.mem_singleton.1 hmem, rfl⟩
  | rule | malformed => exact Or.inr ⟨_, line, List.mem_singleton.1 hmem, rfl⟩

end LineReading

namespace Rule

variable {lines : List Text} {i : Nat}

lemma filter_placedRules (required : Bool) (lines : List Text) (i : Nat) (p : Option Text → Bool) :
    (placedRules required lines i).filter (fun r => p r.space) =
      if p (sectionBefore lines i) then placedRules required lines i else [] := by
  split
  · rename_i hp
    exact List.filter_eq_self.2 fun r hr => by rw [(mem_placedRules hr).2.2, hp]
  · rename_i hp
    exact List.filter_eq_nil_iff.2 fun r hr => by rwa [(mem_placedRules hr).2.2]

lemma placed_in_section (h : sectionBefore lines i ≠ none) :
    placedRules true lines i = placedRules false lines i ∧
      placedFaults true lines i = placedFaults false lines i := by
  have hreading : readingAt true lines i = readingAt false lines i :=
    funext (LineReading.of_in_section h true (i + 1))
  rw [placedRules, placedRules, placedFaults, placedFaults, hreading]
  exact ⟨rfl, rfl⟩

/-- What the demand makes of a line above every section. -/
structure Above (lines : List Text) (i : Nat) : Prop where
  rules : placedRules true lines i = []
  line_faults : (placedFaults true lines i).map Fault.line? =
    (placedFaults false lines i).map Fault.line? ++ (placedRules false lines i).map fun r => some r.line
  faults : ∀ fault ∈ placedFaults true lines i, (fault ∈ placedFaults false lines i ∧
    fault.Blames (i + 1) "namespace declaration without a name") ∨
      fault.Blames (i + 1) "rule declared before any namespace"

lemma above_of_section (h : sectionBefore lines i = none) : Above lines i := by
  have hrules : ∀ r ∈ placedRules false lines i, r.line = i + 1 := fun r hr => (mem_placedRules hr).2.1
  cases hline : lines[i]? with
  | none => constructor <;> simp [placedRules, placedFaults, hline]
  | some line =>
    have hstricter : LineReading.Stricter (readingAt true lines i line)
        (readingAt false lines i line) := by
      rw [readingAt, readingAt, h]
      exact LineReading.stricter_of (i + 1) line
    constructor <;> simp only [placedRules, placedFaults, hline] at hrules ⊢
    case rules => exact hstricter.rules_eq_nil
    case line_faults => exact hstricter.line_faults hrules
    case faults => exact fun fault => hstricter.mem_faults

lemma placedRules_required (lines : List Text) (i : Nat) :
    placedRules true lines i = (placedRules false lines i).filter fun r => r.space.isSome := by
  rw [filter_placedRules false lines i Option.isSome]
  by_cases h : sectionBefore lines i = none
  · rw [(above_of_section h).rules, h]
    rfl
  · rw [(placed_in_section h).1, if_pos (Option.isSome_iff_ne_none.2 h)]

lemma line_placedFaults (lines : List Text) (i : Nat) :
    (placedFaults true lines i).map Fault.line? = (placedFaults false lines i).map Fault.line? ++
      ((placedRules false lines i).filter fun r => r.space.isNone).map fun r => some r.line := by
  rw [filter_placedRules false lines i Option.isNone]
  by_cases h : sectionBefore lines i = none
  · rw [(above_of_section h).line_faults, h]
    rfl
  · rw [(placed_in_section h).2, if_neg (by simpa using h), List.map_nil, List.append_nil]

lemma faultsAt_in_section {n : Nat} (h : i + 1 = n → sectionBefore lines i ≠ none) :
    faultsAt (placedFaults true lines i) n = faultsAt (placedFaults false lines i) n := by
  by_cases hn : i + 1 = n
  · rw [(placed_in_section (h hn)).2]
  · have hnone : ∀ required, faultsAt (placedFaults required lines i) n = [] := fun required =>
      List.filter_eq_nil_iff.2 fun fault hfault => by simp [(mem_placedFaults hfault).2, hn]
    rw [hnone, hnone]

def OpenAbove (content : Text) (n : Nat) : Prop :=
  ∃ line ∈ (Text.lines content).take (n - 1), opened? line ≠ none

lemma openAbove_iff {content : Text} :
    OpenAbove content (i + 1) ↔ sectionBefore (Text.lines content) i ≠ none := by
  rw [OpenAbove, Nat.add_sub_cancel, sectionBefore, sectionFrom, Option.or_none, ne_eq,
    List.getLast?_eq_none_iff, List.filterMap_eq_nil_iff]
  simp

structure Tightens (content : Text) : Prop where
  rules : (diagnose true content).1 = (diagnose false content).1.filter fun r => r.space.isSome
  lines : ((diagnose true content).2.map Fault.line?).Perm
    ((diagnose false content).2.map Fault.line? ++
      ((diagnose false content).1.filter fun r => r.space.isNone).map fun r => some r.line)
  increasing : ((diagnose true content).2.filterMap Fault.line?).Pairwise (· < ·)
  below : ∀ n, OpenAbove content n →
    faultsAt (diagnose true content).2 n = faultsAt (diagnose false content).2 n
  above : ∀ fault ∈ (diagnose true content).2, ∃ n, fault.line? = some n ∧ (¬ OpenAbove content n →
    (fault ∈ (diagnose false content).2 ∧ fault.Blames n "namespace declaration without a name") ∨
      fault.Blames n "rule declared before any namespace")
  parse : ∀ rules, parse true content = .ok rules → parse false content = .ok rules

theorem tightens_diagnose (content : Text) : Tightens content := by
  have hrules : (diagnose true content).1 =
      (diagnose false content).1.filter fun r => r.space.isSome := by
    simp only [diagnose_eq, List.filter_flatMap]
    exact congrArg (List.flatMap · _) (funext (placedRules_required _))
  have hlines : ((diagnose true content).2.map Fault.line?).Perm
      ((diagnose false content).2.map Fault.line? ++
        ((diagnose false content).1.filter fun r => r.space.isNone).map fun r => some r.line) := by
    -- line by line the two sides have the same members, so only the order of the whole is lost
    simp only [diagnose_eq, List.filter_flatMap, List.map_flatMap, line_placedFaults]
    exact (List.flatMap_append_perm _ _ _).symm
  constructor
  case rules => exact hrules
  case lines => exact hlines
  case increasing =>
    rw [diagnose_eq]
    exact (accounting_placed true (Text.lines content)).faults_increase
  case below =>
    intro n hopen
    simp only [diagnose_eq, faultsAt, List.filter_flatMap]
    refine List.flatMap_congr fun i _ => faultsAt_in_section ?_
    rintro rfl
    exact openAbove_iff.1 hopen
  case above =>
    intro fault hmem
    rw [diagnose_eq] at hmem ⊢
    obtain ⟨i, hi, hplaced⟩ := List.mem_flatMap.1 hmem
    refine ⟨i + 1, (mem_placedFaults hplaced).2, fun hopen => ?_⟩
    rw [openAbove_iff, not_not] at hopen
    refine ((above_of_section hopen).faults fault hplaced).imp_left fun h => ⟨?_, h.2⟩
    exact List.mem_flatMap.2 ⟨i, hi, h.1⟩
  case parse =>
    intro rules hparse
    obtain ⟨hfaults, rfl⟩ := parse_eq_ok_iff.1 hparse
    rw [hfaults, List.map_nil, List.nil_perm, List.append_eq_nil_iff, List.map_eq_nil_iff,
      List.map_eq_nil_iff, List.filter_eq_nil_iff] at hlines
    refine parse_eq_ok_iff.2 ⟨hlines.1, ?_⟩
    rw [hrules, eq_comm, List.filter_eq_self]
    intro r hr
    have hspace := hlines.2 r hr
    rwa [Option.isNone_iff_eq_none, ← ne_eq, ← Option.isSome_iff_ne_none] at hspace

end Rule

end LexRules
