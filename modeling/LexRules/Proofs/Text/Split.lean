import LexRules.Text
import Mathlib.Tactic.Lemma

/-! Splitting a list at an element, and joining pieces with it. Pieces without the element can be told
from the list that they make. -/

namespace LexRules

namespace Text

variable {α : Type} [DecidableEq α]

lemma splitOn_ne_nil (sep : α) (t : List α) : splitOn sep t ≠ [] := by
  cases t with
  | nil => simp [splitOn]
  | cons c t =>
    rw [splitOn]
    split
    · simp
    · split <;> simp

lemma splitOn_append (sep : α) (s t : List α) :
    splitOn sep (s ++ sep :: t) = splitOn sep s ++ splitOn sep t := by
  induction s with
  | nil => simp [splitOn]
  | cons c s ih =>
    rw [List.cons_append, splitOn, splitOn, ih]
    by_cases hc : c = sep
    · simp [hc]
    · cases hs : splitOn sep s with
      | nil => exact absurd hs (splitOn_ne_nil sep s)
      | cons piece pieces => simp [hc]

lemma splitOn_of_not_mem {sep : α} {t : List α} (h : sep ∉ t) : splitOn sep t = [t] := by
  induction t with
  | nil => rfl
  | cons c t ih =>
    rw [List.mem_cons, not_or] at h
    rw [splitOn, if_neg (Ne.symm h.1), ih h.2]

lemma splitOn_map {sep : α} {f : α → α} (hf : ∀ c, f c = sep ↔ c = sep) (t : List α) :
    splitOn sep (t.map f) = (splitOn sep t).map (List.map f) := by
  induction t with
  | nil => rfl
  | cons c t ih =>
    rw [List.map_cons, splitOn, splitOn, ih]
    by_cases hc : c = sep
    · rw [if_pos ((hf c).2 hc), if_pos hc]
      rfl
    · rw [if_neg (hc ∘ (hf c).1), if_neg hc]
      cases splitOn sep t <;> rfl

lemma not_mem_of_mem_splitOn {sep : α} {t piece : List α} (h : piece ∈ splitOn sep t) :
    sep ∉ piece := by
  induction t generalizing piece with
  | nil => exact List.mem_singleton.1 h ▸ List.not_mem_nil
  | cons c t ih =>
    rw [splitOn] at h
    split at h
    · rcases List.mem_cons.1 h with rfl | h
      · exact List.not_mem_nil
      · exact ih h
    · rename_i hc
      cases ht : splitOn sep t with
      | nil => exact absurd ht (splitOn_ne_nil sep t)
      | cons first rest =>
        rw [ht] at h ih
        rcases List.mem_cons.1 h with rfl | h
        · exact List.not_mem_cons_of_ne_of_not_mem (Ne.symm hc) (ih List.mem_cons_self)
        · exact ih (List.mem_cons_of_mem first h)

omit [DecidableEq α] in
lemma joinWith_cons (sep piece : List α) {pieces : List (List α)} (h : pieces ≠ []) :
    joinWith sep (piece :: pieces) = piece ++ sep ++ joinWith sep pieces := by
  cases pieces with
  | nil => exact absurd rfl h
  | cons next pieces => rfl

lemma joinWith_splitOn (sep : α) (t : List α) : joinWith [sep] (splitOn sep t) = t := by
  induction t with
  | nil => rfl
  | cons c t ih =>
    rw [splitOn]
    split
    · rename_i hc
      rw [joinWith_cons _ _ (splitOn_ne_nil sep t), ih, hc]
      rfl
    · cases hpieces : splitOn sep t with
      | nil => exact absurd hpieces (splitOn_ne_nil sep t)
      | cons piece pieces =>
        rw [hpieces] at ih
        cases pieces with
        | nil => simpa [joinWith] using ih
        | cons next pieces => simpa [joinWith] using ih

lemma splitOn_joinWith {sep : α} {pieces : List (List α)} (hne : pieces ≠ [])
    (h : ∀ piece ∈ pieces, sep ∉ piece) : splitOn sep (joinWith [sep] pieces) = pieces := by
  induction pieces with
  | nil => exact absurd rfl hne
  | cons piece pieces ih =>
    obtain ⟨hpiece, hpieces⟩ := List.forall_mem_cons.1 h
    by_cases hlast : pieces = []
    · rw [hlast]
      exact splitOn_of_not_mem hpiece
    · rw [joinWith_cons _ _ hlast, List.append_assoc, List.singleton_append, splitOn_append,
        splitOn_of_not_mem hpiece, ih hlast hpieces, List.singleton_append]

end Text

end LexRules
