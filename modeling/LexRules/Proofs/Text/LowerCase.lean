import LexRules.Text.Blank
import LexRules.Text.LowerCase
import Mathlib.Tactic.Lemma

/-! Lower case: what is in lower case stays so, nothing becomes or stops being white space or a dot,
and the case of ASCII letters does not matter. -/

namespace LexRules

namespace CaseTable

variable {r q : Run} {n low high : Nat}

def Run.move (r : Run) (n : Nat) : Nat := (n + r.shift).toNat

/-- Nothing that the run moves ends between two code points. -/
def Run.misses (r : Run) (low high : Nat) : Bool :=
  (r.move r.last).blt low || high.blt (r.move r.first)

/-- What `r` moves is not moved again: it ends outside of the run, or is moved up to the places between
those that the run takes by turns. -/
def Run.leaves (q r : Run) : Bool :=
  r.misses q.first q.last || q.step == 2 && (r.step == 2 || r.first == r.last) &&
    decide (0 ≤ r.shift) && (r.move r.first + q.first) % 2 == 1

lemma covers_iff : r.covers n = true ↔ (r.first ≤ n ∧ n ≤ r.last) ∧ (n - r.first) % r.step = 0 := by
  rw [Run.covers, Bool.and_eq_true, Bool.and_eq_true, decide_eq_true_eq, decide_eq_true_eq, beq_iff_eq]

lemma not_between_of_misses (h : r.misses low high = true) (hn : r.covers n = true) :
    ¬ (low ≤ r.move n ∧ r.move n ≤ high) := by
  rw [covers_iff] at hn
  simp only [Run.misses, Run.move, Bool.or_eq_true, Nat.blt_eq] at h ⊢
  omega

lemma not_covers_of_leaves (h : q.leaves r = true) (hn : r.covers n = true) :
    q.covers (r.move n) = false := by
  rw [← Bool.not_eq_true]
  intro hq
  rw [Run.leaves, Bool.or_eq_true] at h
  rcases h with h | h
  · exact not_between_of_misses h hn (covers_iff.1 hq).1
  · simp only [Run.move, Bool.and_eq_true, Bool.or_eq_true, beq_iff_eq, decide_eq_true_eq] at h
    obtain ⟨⟨⟨hstep, hturns⟩, hup⟩, hodd⟩ := h
    rw [covers_iff] at hn hq
    rw [Run.move, hstep] at hq
    rcases hturns with hturns | hone
    · rw [hturns] at hn
      omega
    · omega

lemma lowerRuns_leave : (lowerRuns.all fun q => lowerRuns.all fun r => q.leaves r) = true := by
  decide +kernel

lemma lowerCode_cases (n : Nat) :
    lowerCode n = n ∨ ∃ r ∈ lowerRuns, r.covers n = true ∧ lowerCode n = r.move n := by
  rw [lowerCode]
  split
  · rename_i r hfind
    have hcovers := List.find?_some (p := (Run.covers · n)) hfind
    exact Or.inr ⟨r, List.mem_of_find?_eq_some hfind, hcovers, rfl⟩
  · exact Or.inl rfl

@[simp] lemma lowerCode_lowerCode (n : Nat) : lowerCode (lowerCode n) = lowerCode n := by
  rcases lowerCode_cases n with heq | ⟨r, hr, hcovers, heq⟩
  · rw [heq, heq]
  · -- no run takes what another has moved
    have hleft : ∀ q ∈ lowerRuns, ¬ q.covers (r.move n) = true := by
      intro q hq
      have hleaves := List.all_eq_true.1 (List.all_eq_true.1 lowerRuns_leave q hq) r hr
      simp [not_covers_of_leaves hleaves hcovers]
    rw [heq, lowerCode, List.find?_eq_none.2 hleft]

def still (range : Nat × Nat) : Bool :=
  lowerRuns.all fun r =>
    (r.last.blt range.1 || range.2.blt r.first) && r.misses range.1 range.2

lemma between_lowerCode_iff {range : Nat × Nat} (h : still range = true) (n : Nat) :
    range.1 ≤ lowerCode n ∧ lowerCode n ≤ range.2 ↔ range.1 ≤ n ∧ n ≤ range.2 := by
  rcases lowerCode_cases n with heq | ⟨r, hr, hcovers, heq⟩
  · rw [heq]
  · have hrun := List.all_eq_true.1 h r hr
    rw [Bool.and_eq_true, Bool.or_eq_true, Nat.blt_eq, Nat.blt_eq] at hrun
    have hbounds := (covers_iff.1 hcovers).1
    rw [heq]
    exact iff_of_false (not_between_of_misses hrun.2 hcovers) (by omega)

lemma inRanges_lowerCode {ranges : List (Nat × Nat)} (h : ranges.all still = true) (n : Nat) :
    Text.inRanges (lowerCode n) ranges = Text.inRanges n ranges := by
  rw [Bool.eq_iff_iff]
  simp only [Text.inRanges, List.any_eq_true, Bool.and_eq_true, decide_eq_true_eq]
  constructor
  · rintro ⟨range, hrange, hbetween⟩
    exact ⟨range, hrange, (between_lowerCode_iff (List.all_eq_true.1 h range hrange) n).1 hbetween⟩
  · rintro ⟨range, hrange, hbetween⟩
    exact ⟨range, hrange, (between_lowerCode_iff (List.all_eq_true.1 h range hrange) n).2 hbetween⟩

lemma lowerRuns_end : (lowerRuns.all fun r => (r.move r.last).blt 0x110000) = true := by
  decide +kernel

lemma isValidChar_lowerCode (h : n.isValidChar) : (lowerCode n).isValidChar := by
  have hstill : still (0xD800, 0xDFFF) = true := by decide +kernel
  have hsurrogate := between_lowerCode_iff hstill n
  have hend : lowerCode n < 0x110000 := by
    rcases lowerCode_cases n with heq | ⟨r, hr, hcovers, heq⟩
    · rw [heq]
      rcases h with h | h <;> omega
    · have hrun := List.all_eq_true.1 lowerRuns_end r hr
      rw [Nat.blt_eq] at hrun
      rw [covers_iff] at hcovers
      rw [heq, Run.move] at *
      omega
  rw [Nat.isValidChar] at *
  omega

end CaseTable

namespace Text

variable {c d : Char} {t : Text}

def lower (c : Char) : Char := Char.ofNat (CaseTable.lowerCode c.toNat)

lemma toNat_lower (c : Char) : (lower c).toNat = CaseTable.lowerCode c.toNat := by
  have hvalid : (CaseTable.lowerCode c.toNat).isValidChar := CaseTable.isValidChar_lowerCode c.valid
  rw [lower, Char.ofNat, dif_pos hvalid]
  rfl

lemma lowerChar_of_ne (h : c ≠ 'İ') : lowerChar c = [lower c] := if_neg h

def lowerUnit (before : Text) (c : Char) (rest : Text) : Text :=
  if c = 'Σ' then
    (if nextIsCased before && !nextIsCased rest then ['ς'] else ['σ'])
  else lowerChar c

lemma lowerAfter_cons (before : Text) (c : Char) (rest : Text) :
    lowerAfter before (c :: rest) = lowerUnit before c rest ++ lowerAfter (c :: before) rest := rfl

lemma mem_lowerUnit {before rest : Text} (h : d ∈ lowerUnit before c rest) :
    c = 'Σ' ∧ (d = 'ς' ∨ d = 'σ') ∨ c = 'İ' ∧ (d = 'i' ∨ d = '\u0307') ∨ c ≠ 'İ' ∧ d = lower c := by
  rw [lowerUnit] at h
  split at h
  · rename_i hsigma
    split at h
    · exact Or.inl ⟨hsigma, Or.inl (List.mem_singleton.1 h)⟩
    · exact Or.inl ⟨hsigma, Or.inr (List.mem_singleton.1 h)⟩
  · by_cases hdotted : c = 'İ'
    · rw [lowerChar, if_pos hdotted] at h
      exact Or.inr (Or.inl ⟨hdotted, by simpa using h⟩)
    · rw [lowerChar_of_ne hdotted] at h
      exact Or.inr (Or.inr ⟨hdotted, List.mem_singleton.1 h⟩)

lemma lowerUnit_ne_nil (before : Text) (c : Char) (rest : Text) : lowerUnit before c rest ≠ [] := by
  rw [lowerUnit, lowerChar]
  split <;> split <;> simp

def IsLower (c : Char) : Prop := c ≠ 'Σ' ∧ lowerChar c = [c]

instance (c : Char) : Decidable (IsLower c) := inferInstanceAs (Decidable (_ ∧ _))

lemma isLower_lower (h : c ≠ 'İ') : IsLower (lower c) := by
  have hsigma : CaseTable.lowerCode 0x3A3 ≠ 0x3A3 := by decide +kernel
  have hstill : CaseTable.still (0x130, 0x130) = true := by decide +kernel
  have hdotted : lower c ≠ 'İ' := by
    intro heq
    have hcode : CaseTable.lowerCode c.toNat = 0x130 := toNat_lower c ▸ congrArg Char.toNat heq
    have hbetween := (CaseTable.between_lowerCode_iff hstill c.toNat).1 (by rw [hcode]; decide)
    exact h (Char.toNat_inj.1 (Nat.le_antisymm hbetween.2 hbetween.1))
  constructor
  · intro heq
    have hcode : CaseTable.lowerCode c.toNat = 0x3A3 := toNat_lower c ▸ congrArg Char.toNat heq
    have htwice := CaseTable.lowerCode_lowerCode c.toNat
    rw [hcode] at htwice
    exact hsigma htwice
  · rw [lowerChar_of_ne hdotted, lower, toNat_lower, CaseTable.lowerCode_lowerCode, lower]

lemma isLower_of_mem_lowerUnit {before rest : Text} (h : d ∈ lowerUnit before c rest) : IsLower d := by
  rcases mem_lowerUnit h with ⟨-, rfl | rfl⟩ | ⟨-, rfl | rfl⟩ | ⟨hdotted, rfl⟩
  · decide +kernel
  · decide +kernel
  · decide +kernel
  · decide +kernel
  · exact isLower_lower hdotted

lemma isLower_of_mem_lowerAfter {before : Text} (h : d ∈ lowerAfter before t) : IsLower d := by
  induction t generalizing before with
  | nil => exact absurd h List.not_mem_nil
  | cons c t ih =>
    rw [lowerAfter_cons, List.mem_append] at h
    exact h.elim isLower_of_mem_lowerUnit ih

lemma lowerAfter_of_isLower {before : Text} (h : ∀ c ∈ t, IsLower c) : lowerAfter before t = t := by
  induction t generalizing before with
  | nil => rfl
  | cons c t ih =>
    obtain ⟨hc, ht⟩ := List.forall_mem_cons.1 h
    rw [lowerAfter_cons, lowerUnit, if_neg hc.1, hc.2, ih ht, List.singleton_append]

lemma lowerCase_eq_self_iff : lowerCase t = t ↔ ∀ c ∈ t, IsLower c := by
  constructor
  · intro h c hc
    rw [← h] at hc
    exact isLower_of_mem_lowerAfter hc
  · exact lowerAfter_of_isLower

@[simp] lemma lowerCase_lowerCase (t : Text) : lowerCase (lowerCase t) = lowerCase t :=
  lowerCase_eq_self_iff.2 fun _ => isLower_of_mem_lowerAfter

def Steady (p : Char → Bool) : Prop := ∀ before c rest, ∀ d ∈ lowerUnit before c rest, p d = p c

/-- The characters whose lower case is not looked up alone, and what they are written as. -/
def specials : Text := ['Σ', 'ς', 'σ', 'İ', 'i', '\u0307']

lemma steady_inRanges {ranges : List (Nat × Nat)} (hstill : ranges.all CaseTable.still = true)
    (hspecial : (specials.any fun c => inRanges c.toNat ranges) = false) :
    Steady fun c => inRanges c.toNat ranges := by
  have heq {c d : Char} (hc : c ∈ specials) (hd : d ∈ specials) :
      inRanges d.toNat ranges = inRanges c.toNat ranges :=
    Bool.eq_iff_iff.2 (iff_of_false (List.any_eq_false.1 hspecial d hd) (List.any_eq_false.1 hspecial c hc))
  intro before c rest d hd
  rcases mem_lowerUnit hd with ⟨rfl, rfl | rfl⟩ | ⟨rfl, rfl | rfl⟩ | ⟨-, rfl⟩
  · exact heq (by simp [specials]) (by simp [specials])
  · exact heq (by simp [specials]) (by simp [specials])
  · exact heq (by simp [specials]) (by simp [specials])
  · exact heq (by simp [specials]) (by simp [specials])
  · simp only [toNat_lower, CaseTable.inRanges_lowerCode hstill]

lemma steady_isBlank : Steady isBlank := steady_inRanges (by decide +kernel) (by decide)

lemma steady_dot : Steady (· == '.') := by
  have hdot : (· == '.') = fun c : Char => inRanges c.toNat [(0x2E, 0x2E)] := by
    funext c
    rw [Bool.eq_iff_iff, beq_iff_eq, ← Char.toNat_inj]
    simp [inRanges]
    omega
  rw [hdot]
  exact steady_inRanges (by decide +kernel) (by decide)

lemma Steady.head {p : Char → Bool} (hp : Steady p) (t : Text) :
    (lowerCase t).head?.map p = t.head?.map p := by
  cases t with
  | nil => rfl
  | cons c t =>
    rw [lowerCase, lowerAfter_cons]
    cases hunit : lowerUnit [] c t with
    | nil => exact absurd hunit (lowerUnit_ne_nil [] c t)
    | cons d unit => exact congrArg some (hp [] c t d (hunit ▸ List.mem_cons_self))

lemma Steady.getLast {p : Char → Bool} (hp : Steady p) (before t : Text) :
    (lowerAfter before t).getLast?.map p = t.getLast?.map p := by
  induction t generalizing before with
  | nil => rfl
  | cons c t ih =>
    rw [lowerAfter_cons, List.getLast?_append, Option.map_or, ih, List.getLast?_cons]
    cases hlast : t.getLast? with
    | some d => rfl
    | none =>
      obtain ⟨d, hd⟩ := Option.isSome_iff_exists.1 (List.getLast?_isSome.2 (lowerUnit_ne_nil before c t))
      rw [hd]
      exact congrArg some (hp before c t d (List.mem_of_getLast? hd))

end Text

end LexRules
