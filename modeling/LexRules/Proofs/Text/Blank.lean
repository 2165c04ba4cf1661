import LexRules.Text.Blank
import Mathlib.Data.List.DropRight
import Mathlib.Tactic.Lemma

/-! Trimming: nothing is left to trim in a trimmed text, and trimming adds nothing. -/

namespace LexRules.Text

variable {t : Text} {c : Char}

lemma trimEnd_eq (t : Text) : trimEnd t = t.rdropWhile isBlank := rfl

lemma trim_isInfix (t : Text) : trim t <:+: t := by
  rw [trim, trimEnd_eq]
  exact (List.rdropWhile_prefix isBlank _).isInfix.trans (List.dropWhile_suffix isBlank).isInfix

lemma mem_of_mem_trim (h : c ∈ trim t) : c ∈ t := (trim_isInfix t).subset h

lemma isBlank_head (h : trimStart t = t) (hc : t.head? = some c) : isBlank c = false := by
  have hnot := List.head?_dropWhile_not isBlank t
  rw [← h, trimStart] at hc
  simpa [hc] using hnot

lemma trimStart_of_head (h : ∀ c, t.head? = some c → isBlank c = false) : trimStart t = t := by
  cases t with
  | nil => rfl
  | cons c t => simp [trimStart, h c rfl]

lemma trimStart_trimEnd (h : trimStart t = t) : trimStart (trimEnd t) = trimEnd t := by
  apply trimStart_of_head
  intro c hc
  apply isBlank_head h
  obtain ⟨rest, hrest⟩ := List.rdropWhile_prefix isBlank t
  rw [← hrest, List.head?_append, ← trimEnd_eq, hc]
  rfl

@[simp] lemma trim_trim (t : Text) : trim (trim t) = trim t := by
  have hstart : trimStart (trimStart t) = trimStart t := List.dropWhile_idempotent isBlank t
  rw [trim, trim, trimStart_trimEnd hstart]
  exact List.rdropWhile_idempotent isBlank (trimStart t)

lemma trimEnd_append_blank (s : Text) (h : allBlank t = true) : trimEnd (s ++ t) = trimEnd s := by
  induction t using List.reverseRecOn with
  | nil => rw [List.append_nil]
  | append_singleton t c ih =>
    rw [allBlank, List.all_append, Bool.and_eq_true, List.all_cons, List.all_nil, Bool.and_true] at h
    rw [← List.append_assoc, trimEnd_eq, List.rdropWhile_concat_pos isBlank _ c h.2, ← trimEnd_eq]
    exact ih h.1

lemma trim_blank_append (s : Text) (h : allBlank t = true) : trim (t ++ s) = trim s := by
  rw [trim, trim, trimStart, List.dropWhile_append_of_pos (List.all_eq_true.1 h), ← trimStart]

lemma trim_append_blank (s : Text) (h : allBlank t = true) : trim (s ++ t) = trim s := by
  rw [trim, trim, trimStart, List.dropWhile_append]
  split
  · rename_i hempty
    have ht : t.dropWhile isBlank = [] := List.dropWhile_eq_nil_iff.2 (List.all_eq_true.1 h)
    rw [ht, trimStart, List.isEmpty_iff.1 hempty]
  · exact trimEnd_append_blank _ h

lemma exists_blank_end (t : Text) : ∃ w, allBlank w = true ∧ trimEnd t ++ w = t :=
  ⟨t.rtakeWhile isBlank, List.all_eq_true.2 fun _ hc => List.mem_rtakeWhile_imp hc,
    List.rdropWhile_append_rtakeWhile⟩

lemma trimEnd_append_trimEnd (s t : Text) : trimEnd (s ++ trimEnd t) = trimEnd (s ++ t) := by
  obtain ⟨w, hw, ht⟩ := exists_blank_end t
  conv_rhs => rw [← ht, ← List.append_assoc, trimEnd_append_blank _ hw]

lemma trimEnd_dropFinal (h : isBlank c = true) (t : Text) : trimEnd (dropFinal c t) = trimEnd t := by
  rw [dropFinal]
  split
  · rename_i hlast
    obtain ⟨s, rfl⟩ := List.getLast?_eq_some_iff.1 hlast
    rw [List.dropLast_concat, trimEnd_append_blank s (by simp [allBlank, h])]
  · rfl

lemma trim_blank_cons (h : isBlank c = true) (t : Text) : trim (c :: t) = trim t := by
  simp [trim, trimStart, h]

lemma isBlank_getLast (h : trim t = t) (hne : t ≠ []) : isBlank (t.getLast hne) = false := by
  have hlast := List.rdropWhile_last_not isBlank (trimStart t)
  rw [← trimEnd_eq, ← trim] at hlast
  simpa [h] using hlast (h.symm ▸ hne)

lemma getLast_ne_of_trimmed (h : trim t = t) (hc : isBlank c = true) : t.getLast? ≠ some c := by
  intro hlast
  have hne : t ≠ [] := by
    rintro rfl
    exact absurd hlast nofun
  rw [List.getLast?_eq_some_getLast hne] at hlast
  rw [← Option.some.inj hlast, isBlank_getLast h hne] at hc
  exact absurd hc nofun

lemma trimStart_eq_self_iff : trimStart t = t ↔ t.head?.map isBlank ≠ some true := by
  constructor
  · intro h hblank
    obtain ⟨c, hc, hblank⟩ := Option.map_eq_some_iff.1 hblank
    exact Bool.false_ne_true ((isBlank_head h hc).symm.trans hblank)
  · intro h
    refine trimStart_of_head fun c hc => ?_
    rw [hc] at h
    exact Bool.eq_false_iff.2 fun hblank => h (congrArg some hblank)

lemma trimEnd_eq_self_iff : trimEnd t = t ↔ t.getLast?.map isBlank ≠ some true := by
  rw [trimEnd_eq, List.rdropWhile_eq_self_iff]
  constructor
  · intro h hblank
    obtain ⟨c, hc, hblank⟩ := Option.map_eq_some_iff.1 hblank
    obtain ⟨rest, rfl⟩ := List.getLast?_eq_some_iff.1 hc
    exact h (by simp) (by simpa using hblank)
  · intro h hne hblank
    rw [List.getLast?_eq_some_getLast hne] at h
    exact h (congrArg some hblank)

lemma trimEnd_of_suffix {s : Text} (h : trimEnd t = t) (hs : s <:+ t) : trimEnd s = s := by
  by_cases hnil : s = []
  · rw [hnil]
    rfl
  · rw [trimEnd_eq_self_iff] at h ⊢
    obtain ⟨front, rfl⟩ := hs
    rwa [List.getLast?_append_of_ne_nil front hnil] at h

lemma trim_eq_self_iff : trim t = t ↔ trimStart t = t ∧ trimEnd t = t := by
  constructor
  · intro h
    have hstart : trimStart t = t := by
      have hprefix : trim t <+: trimStart t := List.rdropWhile_prefix isBlank _
      have hsuffix : trimStart t <:+ t := List.dropWhile_suffix isBlank
      rw [h] at hprefix
      exact hsuffix.eq_of_length_le hprefix.length_le
    rw [trim, hstart] at h
    exact ⟨hstart, h⟩
  · rintro ⟨hstart, hend⟩
    rw [trim, hstart, hend]

end LexRules.Text
