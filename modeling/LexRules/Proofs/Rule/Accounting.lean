import LexRules.Proofs.Rule.Reading
import LexRules.Proofs.Text.Lines

/-! Every line of a definition file counts once: it is blank, opens a section, is the source of one
rule, or is the source of one fault. -/

namespace LexRules

lemma filter_flatMap_range {β : Type} {f : Nat → List β} {p : β → Bool} {n i : Nat} (hi : i < n)
    (hp : ∀ j, ∀ x ∈ f j, p x = decide (j = i)) : ((List.range n).flatMap f).filter p = f i := by
  have hkeep : ∀ j, (f j).filter p = if j = i then f i else [] := by
    intro j
    split
    · rename_i hj
      subst hj
      exact List.filter_eq_self.2 fun x hx => by simp [hp j x hx]
    · rename_i hj
      exact List.filter_eq_nil_iff.2 fun x hx => by simp [hp j x hx, hj]
  rw [List.filter_flatMap]
  simp only [hkeep]
  induction n with
  | zero => exact absurd hi (Nat.not_lt_zero i)
  | succ n ih =>
    rw [List.range_succ, List.flatMap_append]
    rcases Nat.lt_succ_iff_lt_or_eq.1 hi with h | rfl
    · rw [ih h]
      simp [Nat.ne_of_gt h]
    · have hnone : (List.range i).flatMap (fun j => if j = i then f i else []) = [] := by
        rw [List.flatMap_eq_nil_iff]
        intro j hj
        rw [if_neg (Nat.ne_of_lt (List.mem_range.1 hj))]
      rw [hnone]
      simp

namespace Rule

def rulesAt (rules : List Rule) (number : Nat) : List Rule :=
  rules.filter fun r => r.line = number

def faultsAt (faults : List Fault) (number : Nat) : List Fault :=
  faults.filter fun f => f.line? = some number

end Rule

namespace LineReading

def Accounts (rules : List Rule) (faults : List Fault) (number : Nat) (line : Text) :
    LineReading → Prop
  | .blank => Text.allBlank line = true ∧
    Rule.rulesAt rules number = [] ∧ Rule.faultsAt faults number = []
  | .opens name => Rule.opened? line = some name ∧
    Rule.rulesAt rules number = [] ∧ Rule.faultsAt faults number = []
  | .rule r => Rule.rulesAt rules number = [r] ∧ Rule.faultsAt faults number = []
  | .malformed flaw => Rule.rulesAt rules number = [] ∧
    Rule.faultsAt faults number = [.badLine number flaw line]

def rules : LineReading → List Rule
  | .rule r => [r]
  | _ => []

def faults (number : Nat) (line : Text) : LineReading → List Fault
  | .malformed flaw => [.badLine number flaw line]
  | _ => []

lemma rules_items (number : Nat) (line : Text) (reading : LineReading) :
    (Rule.separate (reading.items number line)).1 = reading.rules := by
  cases reading <;> rfl

lemma faults_items (number : Nat) (line : Text) (reading : LineReading) :
    (Rule.separate (reading.items number line)).2 = reading.faults number line := by
  cases reading <;> rfl

lemma accounts_iff {rs : List Rule} {fs : List Fault} {required : Bool} {space : Option Text}
    {number : Nat} {line : Text}
    (hrules : Rule.rulesAt rs number = (of required space number line).rules)
    (hfaults : Rule.faultsAt fs number = (of required space number line).faults number line)
    (reading : LineReading) :
    reading.Accounts rs fs number line ↔ reading = of required space number line := by
  have hspec := of_spec required space number line
  constructor
  · intro h
    cases reading with
    | blank => exact (of_blank h.1 required space number).symm
    | opens name => exact (of_opened h.1 required space number).symm
    | rule r =>
      rw [h.1] at hrules
      cases hof : of required space number line <;> simp_all [rules]
    | malformed flaw =>
      rw [h.2] at hfaults
      cases hof : of required space number line <;> simp_all [faults]
  · rintro rfl
    cases hof : of required space number line with
    | blank => rw [hof] at hspec hrules hfaults; exact ⟨hspec, hrules, hfaults⟩
    | opens name => rw [hof] at hspec hrules hfaults; exact ⟨hspec, hrules, hfaults⟩
    | rule r => rw [hof] at hrules hfaults; exact ⟨hrules, hfaults⟩
    | malformed flaw => rw [hof] at hrules hfaults; exact ⟨hrules, hfaults⟩

end LineReading

namespace Rule

/-- The section in force at the line at index `i`: the last that a line before it opens. -/
def sectionBefore (lines : List Text) (i : Nat) : Option Text := sectionFrom none (lines.take i)

def readingAt (required : Bool) (lines : List Text) (i : Nat) (line : Text) : LineReading :=
  .of required (sectionBefore lines i) (i + 1) line

def placedRules (required : Bool) (lines : List Text) (i : Nat) : List Rule :=
  match lines[i]? with
  | none => []
  | some line => (readingAt required lines i line).rules

def placedFaults (required : Bool) (lines : List Text) (i : Nat) : List Fault :=
  match lines[i]? with
  | none => []
  | some line => (readingAt required lines i line).faults (i + 1) line

lemma separate_itemsAt (required : Bool) (lines : List Text) (i : Nat) :
    separate (Reader.itemsAt required none 0 lines i) =
      (placedRules required lines i, placedFaults required lines i) := by
  rw [Reader.itemsAt, placedRules, placedFaults]
  cases lines[i]? with
  | none => rfl
  | some line =>
    simp only [Nat.zero_add]
    exact Prod.ext (LineReading.rules_items _ _ _) (LineReading.faults_items _ _ _)

lemma separate_flatMap {β : Type} (l : List β) (f : β → List Reader.Item) :
    separate (l.flatMap f) =
      (l.flatMap fun a => (separate (f a)).1, l.flatMap fun a => (separate (f a)).2) := by
  simp only [separate, List.filterMap_flatMap]

lemma separate_cons_ok (rule : Rule) (items : List Reader.Item) :
    separate (.ok rule :: items) = (rule :: (separate items).1, (separate items).2) := rfl

lemma separate_cons_error (fault : Fault) (items : List Reader.Item) :
    separate (.error fault :: items) = ((separate items).1, fault :: (separate items).2) := rfl

lemma separate_map {f : Reader.Item → Reader.Item} {g : Rule → Rule} {h : Fault → Fault}
    (hrule : ∀ r, f (.ok r) = .ok (g r)) (hfault : ∀ fault, f (.error fault) = .error (h fault))
    (items : List Reader.Item) :
    separate (items.map f) = ((separate items).1.map g, (separate items).2.map h) := by
  induction items with
  | nil => rfl
  | cons item items ih =>
    cases item with
    | ok r => rw [List.map_cons, hrule, separate_cons_ok, separate_cons_ok, ih, List.map_cons]
    | error fault =>
      rw [List.map_cons, hfault, separate_cons_error, separate_cons_error, ih, List.map_cons]

lemma mem_faults_iff {items : List Reader.Item} {fault : Fault} :
    fault ∈ (separate items).2 ↔ .error fault ∈ items := by
  induction items with
  | nil => simp [separate]
  | cons item items ih =>
    cases item with
    | ok rule => simp [separate_cons_ok, ih]
    | error other => simp [separate_cons_error, ih]

lemma mem_rules_iff {items : List Reader.Item} {rule : Rule} :
    rule ∈ (separate items).1 ↔ .ok rule ∈ items := by
  induction items with
  | nil => simp [separate]
  | cons item items ih =>
    cases item with
    | ok other => simp [separate_cons_ok, ih]
    | error fault => simp [separate_cons_error, ih]

lemma untilFault_append {items : List Reader.Item} (h : (separate items).2 = [])
    (more : List Reader.Item) : untilFault (items ++ more) =
      ((separate items).1 ++ (untilFault more).1, (untilFault more).2) := by
  induction items with
  | nil => rfl
  | cons item items ih =>
    cases item with
    | error fault => exact absurd h nofun
    | ok rule =>
      rw [List.cons_append, untilFault, ih h]
      rfl

lemma diagnose_eq (required : Bool) (content : Text) :
    diagnose required content =
      ((List.range (Text.lines content).length).flatMap (placedRules required (Text.lines content)),
        (List.range (Text.lines content).length).flatMap
          (placedFaults required (Text.lines content))) := by
  rw [diagnose, Reader.ofText, Reader.ofLines, Reader.items_lines, separate_flatMap]
  simp only [separate_itemsAt]

section

variable {required : Bool} {lines : List Text} {i : Nat}

lemma mem_itemsAt_of_placedRules {r : Rule} (h : r ∈ placedRules required lines i) :
    .ok r ∈ Reader.itemsAt required none 0 lines i := by
  apply mem_rules_iff.1
  rwa [separate_itemsAt]

lemma mem_itemsAt_of_placedFaults {f : Fault} (h : f ∈ placedFaults required lines i) :
    .error f ∈ Reader.itemsAt required none 0 lines i := by
  apply mem_faults_iff.1
  rwa [separate_itemsAt]

lemma mem_placedRules {r : Rule} (h : r ∈ placedRules required lines i) :
    i < lines.length ∧ r.line = i + 1 ∧ r.space = sectionBefore lines i := by
  obtain ⟨hi, hnumber, hspace⟩ := Reader.mem_itemsAt (mem_itemsAt_of_placedRules h)
  rw [Nat.zero_add] at hnumber
  exact ⟨hi, Option.some.inj hnumber, hspace r rfl⟩

lemma mem_placedFaults {f : Fault} (h : f ∈ placedFaults required lines i) :
    i < lines.length ∧ f.line? = some (i + 1) := by
  obtain ⟨hi, hnumber, -⟩ := Reader.mem_itemsAt (mem_itemsAt_of_placedFaults h)
  rw [Nat.zero_add] at hnumber
  exact ⟨hi, hnumber⟩

lemma placedRules_disjoint {r : Rule} {f : Fault} (hr : r ∈ placedRules required lines i)
    (hf : f ∈ placedFaults required lines i) : False := by
  have hone := Reader.length_itemsAt_le required none 0 lines i
  have hrule := mem_itemsAt_of_placedRules hr
  have hfault := mem_itemsAt_of_placedFaults hf
  match hitems : Reader.itemsAt required none 0 lines i, hone with
  | [], _ =>
    rw [hitems] at hrule
    exact absurd hrule List.not_mem_nil
  | [item], _ =>
    rw [hitems] at hrule hfault
    have heq := (List.mem_singleton.1 hrule).trans (List.mem_singleton.1 hfault).symm
    exact absurd heq nofun

lemma pairwise_flatMap_range {β : Type} {f : Nat → List β} {k : β → Option Nat} {n : Nat}
    (hkey : ∀ j, ∀ x ∈ f j, k x = some (j + 1)) (hone : ∀ j, (f j).length ≤ 1) :
    (((List.range n).flatMap f).filterMap k).Pairwise (· < ·) := by
  rw [List.pairwise_filterMap, List.pairwise_flatMap]
  constructor
  · intro j _
    match f j, hone j with
    | [], _ => exact .nil
    | [x], _ => exact List.pairwise_singleton _ x
  · refine List.pairwise_lt_range.imp ?_
    intro i j hij x hx y hy m hm l hl
    rw [hkey i x hx] at hm
    rw [hkey j y hy] at hl
    obtain rfl := Option.some.inj hm
    obtain rfl := Option.some.inj hl
    omega

lemma length_placed_le (required : Bool) (lines : List Text) (i : Nat) :
    (placedRules required lines i).length ≤ 1 ∧ (placedFaults required lines i).length ≤ 1 := by
  have hone := Reader.length_itemsAt_le required none 0 lines i
  have hplaced := separate_itemsAt required lines i
  rw [← (Prod.mk.inj hplaced).1, ← (Prod.mk.inj hplaced).2]
  exact ⟨Nat.le_trans (List.length_filterMap_le _ _) hone,
    Nat.le_trans (List.length_filterMap_le _ _) hone⟩

lemma rulesAt_placed (hi : i < lines.length) :
    rulesAt ((List.range lines.length).flatMap (placedRules required lines)) (i + 1) =
      placedRules required lines i := by
  apply filter_flatMap_range hi
  intro j r hr
  simp [(mem_placedRules hr).2.1]

lemma faultsAt_placed (hi : i < lines.length) :
    faultsAt ((List.range lines.length).flatMap (placedFaults required lines)) (i + 1) =
      placedFaults required lines i := by
  apply filter_flatMap_range hi
  intro j f hf
  simp [(mem_placedFaults hf).2]

end

structure Accounting (required : Bool) (lines : List Text) (rules : List Rule)
    (faults : List Fault) : Prop where
  once : ∀ i line, lines[i]? = some line → ∀ reading : LineReading,
    reading.Accounts rules faults (i + 1) line ↔ reading = readingAt required lines i line
  rule_line : ∀ r ∈ rules, 0 < r.line ∧ r.line ≤ lines.length
  fault_line : ∀ f ∈ faults, ∃ n, f.line? = some n ∧ 0 < n ∧ n ≤ lines.length
  rules_increase : (rules.map Rule.line).Pairwise (· < ·)
  faults_increase : (faults.filterMap Fault.line?).Pairwise (· < ·)
  disjoint : ∀ r ∈ rules, ∀ f ∈ faults, f.line? ≠ some r.line
  space : ∀ r ∈ rules, r.space = sectionBefore lines (r.line - 1)

lemma accounting_placed (required : Bool) (lines : List Text) :
    Accounting required lines ((List.range lines.length).flatMap (placedRules required lines))
      ((List.range lines.length).flatMap (placedFaults required lines)) where
  once := by
    intro i line hline reading
    obtain ⟨hi, _⟩ := List.getElem?_eq_some_iff.1 hline
    apply LineReading.accounts_iff
    · rw [rulesAt_placed hi, placedRules, hline]
      rfl
    · rw [faultsAt_placed hi, placedFaults, hline]
      rfl
  rule_line := by
    intro r hr
    obtain ⟨i, _, hr⟩ := List.mem_flatMap.1 hr
    obtain ⟨hi, hline, _⟩ := mem_placedRules hr
    omega
  fault_line := by
    intro f hf
    obtain ⟨i, _, hf⟩ := List.mem_flatMap.1 hf
    obtain ⟨hi, hline⟩ := mem_placedFaults hf
    exact ⟨i + 1, hline, by omega, by omega⟩
  rules_increase := by
    have h := pairwise_flatMap_range (n := lines.length) (f := placedRules required lines)
      (k := fun r => some r.line) (fun j r hr => congrArg some (mem_placedRules hr).2.1)
      (fun j => (length_placed_le required lines j).1)
    rwa [List.filterMap_eq_map'] at h
  faults_increase :=
    pairwise_flatMap_range (fun j f hf => (mem_placedFaults hf).2)
      (fun j => (length_placed_le required lines j).2)
  disjoint := by
    intro r hr f hf hsame
    obtain ⟨i, _, hr⟩ := List.mem_flatMap.1 hr
    obtain ⟨j, _, hf⟩ := List.mem_flatMap.1 hf
    have hline := (mem_placedRules hr).2.1
    rw [(mem_placedFaults hf).2, hline] at hsame
    obtain rfl : j = i := by
      have := Option.some.inj hsame
      omega
    exact placedRules_disjoint hr hf
  space := by
    intro r hr
    obtain ⟨i, _, hr⟩ := List.mem_flatMap.1 hr
    obtain ⟨_, hline, hspace⟩ := mem_placedRules hr
    rw [hspace, hline, Nat.add_sub_cancel]

end Rule

end LexRules
