import LexRules.Proofs.Cursor.Run

/-! Scanning one character at a time. For every delimiter, also for one that overlaps itself, leaping from
one place where it is found to the next reads the same as looking at every character. -/

namespace LexRules

namespace Scan

/-- What is scanned in all when `passed` says `text` and `next` is scanned behind it. -/
def behind (text passed : Text) (next : Scan) : Scan :=
  ⟨text ++ next.text, Text.byteSize passed + next.passed, next.closed⟩

/-- A scan that looks at every character: a doubled `d` is read as one if doubling escapes, any other `d`
ends the scan, and all else stands for itself. -/
def stepwise (d : Text) (hd : d ≠ []) (escaping : Bool) : Text → Scan
  | [] => ⟨[], 0, false⟩
  | c :: s =>
    if escaping && (d ++ d).isPrefixOf (c :: s) then
      (stepwise d hd escaping ((c :: s).drop (d ++ d).length)).behind d (d ++ d)
    else if d.isPrefixOf (c :: s) then ⟨[], Text.byteSize d, true⟩
    else (stepwise d hd escaping s).behind [c] [c]
termination_by s => s.length
decreasing_by
  · have := List.length_pos_iff.2 hd
    simp
    omega
  · simp

def ofField (s : Text) (f : Field) : Scan := ⟨f.text, Text.byteSize s - Text.byteSize f.rest, f.closed⟩

variable {d before tail s : Text} {escaping : Bool}

lemma behind_behind (t p u q : Text) (next : Scan) :
    (next.behind u q).behind t p = next.behind (t ++ u) (p ++ q) := by
  simp [behind, Nat.add_assoc]

lemma stepwise_clear (hd : d ≠ []) (h : Field.Clear d before tail) :
    stepwise d hd escaping (before ++ tail) = (stepwise d hd escaping tail).behind before before := by
  induction before with
  | nil => simp [behind]
  | cons c before ih =>
    have hsingle : ¬ d.isPrefixOf (c :: (before ++ tail)) = true := by
      rw [List.isPrefixOf_iff_prefix]
      exact h.1
    have hdouble : ¬ (escaping && (d ++ d).isPrefixOf (c :: (before ++ tail))) = true := by
      rw [Bool.and_eq_true, List.isPrefixOf_iff_prefix]
      exact fun hboth => h.1 ((List.prefix_append d d).trans hboth.2)
    rw [List.cons_append, stepwise, if_neg hdouble, if_neg hsingle, ih h.2, behind_behind]
    rfl

lemma stepwise_single (hd : d ≠ []) (hlast : escaping = true → ¬ d <+: tail) :
    stepwise d hd escaping (d ++ tail) = ⟨[], Text.byteSize d, true⟩ := by
  have hdouble : ¬ (escaping && (d ++ d).isPrefixOf (d ++ tail)) = true := by
    rw [Bool.and_eq_true, List.isPrefixOf_iff_prefix, List.prefix_append_right_inj]
    exact fun hboth => hlast hboth.1 hboth.2
  have hsingle : d.isPrefixOf (d ++ tail) = true :=
    List.isPrefixOf_iff_prefix.2 (List.prefix_append d tail)
  obtain ⟨c, s, hcons⟩ := List.exists_cons_of_ne_nil (List.append_ne_nil_of_left_ne_nil hd tail)
  rw [hcons] at hdouble hsingle ⊢
  rw [stepwise, if_neg hdouble, if_pos hsingle]

lemma stepwise_pair (hd : d ≠ []) (s : Text) :
    stepwise d hd true (d ++ (d ++ s)) = (stepwise d hd true s).behind d (d ++ d) := by
  have hdouble : (true && (d ++ d).isPrefixOf (d ++ (d ++ s))) = true := by
    rw [Bool.true_and, List.isPrefixOf_iff_prefix, ← List.append_assoc]
    exact List.prefix_append (d ++ d) s
  have hdrop : (d ++ (d ++ s)).drop (d ++ d).length = s := by
    rw [← List.append_assoc, List.drop_left]
  obtain ⟨c, t, hcons⟩ := List.exists_cons_of_ne_nil (List.append_ne_nil_of_left_ne_nil hd (d ++ s))
  rw [hcons] at hdouble hdrop ⊢
  rw [stepwise, if_pos hdouble, hdrop]

lemma ofField_eq_stepwise (hd : d ≠ []) (escaping : Bool) (s : Text) :
    ofField s (Field.read d hd escaping s) = stepwise d hd escaping s := by
  induction s using Field.stretch_induction hd escaping with
  | none s hclear =>
    have hstep : stepwise d hd escaping (s ++ []) = _ := stepwise_clear hd hclear
    rw [List.append_nil, stepwise] at hstep
    rw [hstep, Field.read_clear hd hclear]
    simp [ofField, behind]
  | single before tail hclear hlast =>
    rw [List.append_assoc, stepwise_clear hd hclear, stepwise_single hd hlast, ← List.append_assoc,
      Field.read_single hd hclear hlast]
    simp [ofField, behind]
    omega
  | pair hescape before s hclear ih =>
    subst hescape
    -- what is left ends what was there, so the bytes passed are a true difference
    obtain ⟨raw, hraw, -⟩ := Cursor.stretch_read hd true s
    have hsize := congrArg Text.byteSize hraw
    rw [Text.byteSize_append] at hsize
    rw [List.append_assoc, stepwise_clear hd hclear, stepwise_pair, ← ih, ← List.append_assoc,
      Field.read_pair hd hclear]
    simp [ofField, behind]
    omega

end Scan

namespace Cursor

structure Steps (d : Text) (hd : d ≠ []) (escaping : Bool) (c : Cursor) (scan : Scan) : Prop where
  /-- By byte offsets, leaping from one place where `d` is found to the next. -/
  offsets : (Pointer.ofCursor c).scan? d hd escaping = some scan
  read : Scan.ofField c.remaining (Field.read d hd escaping c.remaining) = scan
  until_text : (c.takeUntil d escaping).1 = scan.text
  until_moves : Pointer.ofCursor (c.takeUntil d escaping).2 = (Pointer.ofCursor c).advance scan.passed
  field : c.takeField? d escaping = if scan.closed then some (c.takeUntil d escaping) else none

theorem steps_stepwise {d : Text} (hd : d ≠ []) (escaping : Bool) (c : Cursor) :
    c.Steps d hd escaping (Scan.stepwise d hd escaping c.remaining) := by
  rw [← Scan.ofField_eq_stepwise hd escaping c.remaining]
  constructor
  case offsets => exact Pointer.scan_ofCursor c hd escaping
  case read => rfl
  case until_text =>
    rw [takeUntil, dif_neg hd]
    rfl
  case until_moves =>
    rw [takeUntil, dif_neg hd]
    exact (Pointer.advance_read c hd escaping).symm
  case field =>
    rw [takeField?, takeUntil, dif_neg hd, dif_neg hd]
    rfl

theorem steps_overlapping : ∃ hd : "aa".toList ≠ [],
    (Cursor.mk ['x'] "éaaaaabaaa".toList).Steps "aa".toList hd true ⟨"éaaab".toList, 10, true⟩ := by
  have hd : "aa".toList ≠ [] := by decide
  have hscan : Scan.stepwise "aa".toList hd true "éaaaaabaaa".toList = ⟨"éaaab".toList, 10, true⟩ := by
    simp [Scan.stepwise, Scan.behind, Char.utf8Size]
  exact ⟨hd, hscan ▸ steps_stepwise hd true (Cursor.mk ['x'] "éaaaaabaaa".toList)⟩

end Cursor

end LexRules
