import LexRules.Cursor
import Mathlib.Tactic.Lemma

/-! Cutting a text at a delimiter: the field before its first occurrence, and what the cursor has left
behind it. -/

namespace LexRules

namespace Field

variable {d s before tail : Text}

lemma splitAtFirst_append (h : splitAtFirst? d s = some (before, tail)) : s = before ++ d ++ tail := by
  induction s generalizing before with
  | nil => exact absurd h nofun
  | cons c s ih =>
    rw [splitAtFirst?] at h
    split at h
    · rename_i hinit
      obtain ⟨rfl, rfl⟩ := Prod.mk.inj (Option.some.inj h)
      obtain ⟨rest, hrest⟩ := List.isPrefixOf_iff_prefix.1 hinit
      simp [← hrest]
    · obtain ⟨⟨b, a⟩, hsplit, heq⟩ := Option.map_eq_some_iff.1 h
      obtain ⟨rfl, rfl⟩ := Prod.mk.inj heq
      rw [ih hsplit, List.cons_append, List.cons_append]

/-- No `d` starts within a text when `tail` stands behind it. -/
def Clear (d : Text) : Text → Text → Prop
  | [], _ => True
  | c :: before, tail => ¬ d <+: c :: (before ++ tail) ∧ Clear d before tail

lemma Clear.shorten (h : Clear d before tail) {rest : Text} (hrest : rest <+: tail) :
    Clear d before rest := by
  induction before with
  | nil => exact trivial
  | cons c before ih =>
    refine ⟨fun hinit => h.1 (hinit.trans ?_), ih h.2⟩
    simpa using hrest

lemma splitAtFirst_eq_none_iff : splitAtFirst? d s = none ↔ Clear d s [] := by
  induction s with
  | nil => exact iff_of_true rfl trivial
  | cons c s ih =>
    rw [splitAtFirst?, Clear, ← ih, List.append_nil, ← List.isPrefixOf_iff_prefix]
    split <;> simp_all

lemma splitAtFirst_of_clear (hd : d ≠ []) (h : Clear d before (d ++ tail)) :
    splitAtFirst? d (before ++ d ++ tail) = some (before, tail) := by
  induction before with
  | nil =>
    cases d with
    | nil => exact absurd rfl hd
    | cons c d => simp [splitAtFirst?]
  | cons c before ih =>
    have hinit : ¬ d.isPrefixOf (c :: (before ++ d ++ tail)) = true := by
      rw [List.isPrefixOf_iff_prefix, List.append_assoc]
      exact h.1
    rw [List.cons_append, List.cons_append, splitAtFirst?, if_neg hinit, ih h.2]
    rfl

lemma clear_of_splitAtFirst (h : splitAtFirst? d s = some (before, tail)) :
    Clear d before (d ++ tail) := by
  induction s generalizing before with
  | nil => exact absurd h nofun
  | cons c s ih =>
    rw [splitAtFirst?] at h
    split at h
    · obtain ⟨rfl, -⟩ := Prod.mk.inj (Option.some.inj h)
      exact trivial
    · rename_i hinit
      obtain ⟨⟨b, a⟩, hsplit, heq⟩ := Option.map_eq_some_iff.1 h
      obtain ⟨rfl, rfl⟩ := Prod.mk.inj heq
      refine ⟨?_, ih hsplit⟩
      rwa [← List.append_assoc, ← splitAtFirst_append hsplit, ← List.isPrefixOf_iff_prefix]

lemma clear_singleton_iff {sep : Char} : Clear [sep] before tail ↔ sep ∉ before := by
  induction before with
  | nil => exact iff_of_true trivial List.not_mem_nil
  | cons c before ih => simp [Clear, ih]

lemma splitAtFirst_eq_some_iff {sep : Char} {s before after : Text} :
    splitAtFirst? [sep] s = some (before, after) ↔ s = before ++ sep :: after ∧ sep ∉ before := by
  constructor
  · intro h
    exact ⟨by simpa using splitAtFirst_append h, clear_singleton_iff.1 (clear_of_splitAtFirst h)⟩
  · rintro ⟨rfl, hsep⟩
    simpa using splitAtFirst_of_clear (by simp) (clear_singleton_iff.2 hsep)

lemma read_plain (hd : d ≠ []) (s : Text) :
    read d hd false s = match splitAtFirst? d s with
      | none => ⟨s, false, []⟩
      | some (before, after) => ⟨before, true, after⟩ := by
  rw [read]
  split <;> simp_all

end Field

namespace Cursor

lemma remaining_moveTo {c : Cursor} {s rest : Text} (h : c.remaining = s ++ rest) :
    (c.moveTo rest).remaining = rest := by
  simp [moveTo, advance, h]

lemma takeField_remaining {c : Cursor} {sep : Char} {s rest : Text}
    (h : c.remaining = s ++ sep :: rest) (hs : sep ∉ s) :
    ∃ next, c.takeField? [sep] false = some (s, next) ∧ next.remaining = rest := by
  have hsplit := Field.splitAtFirst_eq_some_iff.2 ⟨h, hs⟩
  refine ⟨c.moveTo rest, ?_, ?_⟩
  · rw [takeField?, dif_neg (by simp), Field.read_plain, hsplit]
    rfl
  · exact remaining_moveTo (s := s ++ [sep]) (by rw [h, List.append_assoc, List.singleton_append])

lemma remaining_takeField {c next : Cursor} {sep : Char} {s : Text}
    (h : c.takeField? [sep] false = some (s, next)) :
    c.remaining = s ++ sep :: next.remaining ∧ sep ∉ s := by
  rw [takeField?, dif_neg (by simp), Field.read_plain] at h
  cases hsplit : Field.splitAtFirst? [sep] c.remaining with
  | none => simp [hsplit] at h
  | some p =>
    obtain ⟨before, after⟩ := p
    obtain ⟨heq, hsep⟩ := Field.splitAtFirst_eq_some_iff.1 hsplit
    simp only [hsplit, if_true, Option.some.injEq, Prod.mk.injEq] at h
    obtain ⟨rfl, rfl⟩ := h
    refine ⟨?_, hsep⟩
    rw [remaining_moveTo (s := before ++ [sep])
      (by rw [heq, List.append_assoc, List.singleton_append]), heq]

lemma takeField_eq_none {c : Cursor} {sep : Char} (h : sep ∉ c.remaining) :
    c.takeField? [sep] false = none := by
  have hsplit := Field.splitAtFirst_eq_none_iff.2 (Field.clear_singleton_iff.2 h)
  rw [takeField?, dif_neg (by simp), Field.read_plain, hsplit]
  rfl

end Cursor

end LexRules
