import LexRules.Text.Lines
import Mathlib.Data.List.Basic
import Mathlib.Tactic.Lemma

/-! The lines of a text as a relation: every line feed ends one, and text behind the last line feed
is a line too. -/

namespace LexRules.Text

lemma pieces_append {α : Type} [DecidableEq α] {stop : α} {piece : List α} (h : stop ∉ piece)
    (rest : List α) : pieces stop (piece ++ stop :: rest) = (piece, true) :: pieces stop rest := by
  induction piece with
  | nil => simp [pieces]
  | cons c piece ih =>
    rw [List.mem_cons, not_or] at h
    rw [List.cons_append, pieces, if_neg (Ne.symm h.1), ih h.2]

lemma pieces_last {α : Type} [DecidableEq α] {stop : α} {piece : List α} (h : stop ∉ piece)
    (hne : piece ≠ []) : pieces stop piece = [(piece, false)] := by
  induction piece with
  | nil => exact absurd rfl hne
  | cons c piece ih =>
    rw [List.mem_cons, not_or] at h
    rw [pieces, if_neg (Ne.symm h.1)]
    cases piece with
    | nil => rfl
    | cons d piece => rw [ih h.2 (by simp)]

lemma dropFinal_of_not_mem {α : Type} [DecidableEq α] {a : α} {l : List α} (h : a ∉ l) :
    dropFinal a l = l := by
  rw [dropFinal, if_neg fun hlast => h (List.mem_of_getLast? hlast)]

lemma dropFinal_append {α : Type} [DecidableEq α] (a : α) (s : List α) {t : List α} (h : t ≠ []) :
    dropFinal a (s ++ t) = s ++ dropFinal a t := by
  rw [dropFinal, dropFinal, List.getLast?_append_of_ne_nil s h, List.dropLast_append_of_ne_nil h]
  split <;> rfl

inductive Lines : Text → List Text → Prop
  | nil : Lines [] []
  | last {line : Text} : '\n' ∉ line → line ≠ [] → Lines line [line]
  | ended {piece rest : Text} {lines : List Text} : '\n' ∉ piece → Lines rest lines →
      Lines (piece ++ '\n' :: rest) (dropFinal '\r' piece :: lines)

lemma lines_append {piece : Text} (h : '\n' ∉ piece) (rest : Text) :
    lines (piece ++ '\n' :: rest) = dropFinal '\r' piece :: lines rest := by
  rw [lines, pieces_append h]
  rfl

lemma lines_last {line : Text} (h : '\n' ∉ line) (hne : line ≠ []) : lines line = [line] := by
  rw [lines, pieces_last h hne]
  rfl

/-- A list cut behind each `stop`, each piece with whether it was ended by one. -/
inductive Pieces {α : Type} (stop : α) : List α → List (List α × Bool) → Prop
  | nil : Pieces stop [] []
  | last {piece : List α} : stop ∉ piece → piece ≠ [] → Pieces stop piece [(piece, false)]
  | ended {piece rest : List α} {more : List (List α × Bool)} : stop ∉ piece → Pieces stop rest more →
      Pieces stop (piece ++ stop :: rest) ((piece, true) :: more)

lemma pieces_spec {α : Type} [DecidableEq α] (stop : α) (l : List α) :
    Pieces stop l (pieces stop l) := by
  induction hn : l.length using Nat.strongRecOn generalizing l with
  | ind n ih =>
    by_cases h : stop ∈ l
    · obtain ⟨piece, rest, rfl, hpiece⟩ := List.eq_append_cons_of_mem h
      rw [pieces_append hpiece]
      exact .ended hpiece (ih rest.length (by simp [← hn]; omega) rest rfl)
    · by_cases hne : l = []
      · rw [hne]
        exact .nil
      · rw [pieces_last h hne]
        exact .last h hne

lemma ended_of_append {α : Type} {stop : α} {piece rest : List α}
    (h : (piece ++ stop :: rest).getLast? = some stop) : rest = [] ∨ rest.getLast? = some stop := by
  cases rest with
  | nil => exact Or.inl rfl
  | cons c rest => simpa [List.getLast?_append, List.getLast?_cons] using h

lemma Pieces.behind {α : Type} [DecidableEq α] {stop : α} {l : List α} {ps : List (List α × Bool)}
    (hpieces : Pieces stop l ps) (h : l = [] ∨ l.getLast? = some stop) (rest : List α) :
    pieces stop (l ++ rest) = ps ++ pieces stop rest ∧ ps.length = l.count stop := by
  induction hpieces with
  | nil => exact ⟨rfl, rfl⟩
  | last hpiece hne => exact absurd (List.mem_of_getLast? (h.resolve_left hne)) hpiece
  | ended hpiece _ ih =>
    obtain ⟨hbehind, hcount⟩ := ih (ended_of_append (h.resolve_left (by simp)))
    constructor
    · rw [List.append_assoc, List.cons_append, pieces_append hpiece, hbehind, List.cons_append]
    · rw [List.length_cons, hcount, List.count_append, List.count_eq_zero_of_not_mem hpiece,
        List.count_cons_self, Nat.zero_add]

lemma lines_of_pieces {content : Text} {ps : List (Text × Bool)} (h : Pieces '\n' content ps) :
    Lines content (ps.map fun p => lineOf p.1 p.2) := by
  induction h with
  | nil => exact .nil
  | last hpiece hne => exact .last hpiece hne
  | ended hpiece _ ih => exact .ended hpiece ih

lemma lines_spec (content : Text) : Lines content (lines content) :=
  lines_of_pieces (pieces_spec '\n' content)

lemma lines_unique {content : Text} {ls : List Text} (h : Lines content ls) : ls = lines content := by
  induction h with
  | nil => rfl
  | last hline hne => exact (lines_last hline hne).symm
  | ended hpiece _ ih => rw [lines_append hpiece, ih]

end LexRules.Text
