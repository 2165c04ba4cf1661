import LexRules.Proofs.Cursor

/-! Delimiters of any length that are doubled to stand for themselves. For a delimiter without a
border, cutting a field off is exactly the inverse of doubling every delimiter in it. -/

namespace LexRules

namespace Field

variable {d s t before tail p q : Text}

/-- A text with each doubled `d` written once, as they are met from the left. -/
def collapse (d : Text) : Text → Text
  | [] => []
  | c :: s =>
    if (d ++ d).isPrefixOf (c :: s) then d ++ collapse d (s.drop (2 * d.length - 1))
    else c :: collapse d s
termination_by s => s.length

/-- A text with each `d` doubled, as they are met from the left. -/
def escaped (d : Text) : Text → Text
  | [] => []
  | c :: s =>
    if d.isPrefixOf (c :: s) then d ++ d ++ escaped d (s.drop (d.length - 1))
    else c :: escaped d s
termination_by s => s.length

lemma collapse_clear (h : Clear d before tail) :
    collapse d (before ++ tail) = before ++ collapse d tail := by
  induction before with
  | nil => rfl
  | cons c before ih =>
    have hinit : ¬ (d ++ d).isPrefixOf (c :: (before ++ tail)) = true := by
      rw [List.isPrefixOf_iff_prefix]
      exact fun hdouble => h.1 ((List.prefix_append d d).trans hdouble)
    rw [List.cons_append, collapse, if_neg hinit, ih h.2, List.cons_append]

lemma collapse_double (hd : d ≠ []) (s : Text) : collapse d (d ++ d ++ s) = d ++ collapse d s := by
  cases d with
  | nil => exact absurd rfl hd
  | cons c d =>
    have hinit : (c :: d ++ c :: d).isPrefixOf (c :: (d ++ c :: d ++ s)) = true := by
      rw [List.isPrefixOf_iff_prefix]
      exact List.prefix_append _ s
    have hdrop : (d ++ c :: d ++ s).drop (2 * (c :: d).length - 1) = s := by
      apply List.drop_left'
      simp
      omega
    rw [List.cons_append, List.cons_append, collapse, if_pos hinit, hdrop]

lemma escaped_clear (h : Clear d before tail) :
    escaped d (before ++ tail) = before ++ escaped d tail := by
  induction before with
  | nil => rfl
  | cons c before ih =>
    have hinit : ¬ d.isPrefixOf (c :: (before ++ tail)) = true := by
      rw [List.isPrefixOf_iff_prefix]
      exact h.1
    rw [List.cons_append, escaped, if_neg hinit, ih h.2, List.cons_append]

lemma escaped_delimiter (hd : d ≠ []) (s : Text) : escaped d (d ++ s) = d ++ d ++ escaped d s := by
  cases d with
  | nil => exact absurd rfl hd
  | cons c d =>
    have hinit : (c :: d).isPrefixOf (c :: (d ++ s)) = true := by
      rw [List.isPrefixOf_iff_prefix]
      exact List.prefix_append _ s
    have hdrop : (d ++ s).drop ((c :: d).length - 1) = s := List.drop_left' (by simp)
    rw [List.cons_append, escaped, if_pos hinit, hdrop]

/-- A text whose `d` are all doubled, as they are met from the left, when `tail` stands behind it. -/
inductive Paired (d tail : Text) : Text → Prop
  | clear {raw : Text} : Clear d raw tail → Paired d tail raw
  | pair {before raw : Text} : Clear d before (d ++ (d ++ (raw ++ tail))) → Paired d tail raw →
      Paired d tail (before ++ (d ++ (d ++ raw)))

lemma collapse_of_clear (h : Clear d s []) : collapse d s = s := by
  simpa [collapse] using collapse_clear h

lemma collapse_pair (hd : d ≠ []) (h : Clear d before (d ++ (d ++ s))) :
    collapse d (before ++ (d ++ (d ++ s))) = before ++ d ++ collapse d s := by
  rw [collapse_clear h, ← List.append_assoc d, collapse_double hd, List.append_assoc]

/-- A text read from the left: no `d` in it, a first `d` that ends the stretch, or one that is
doubled and escapes. -/
lemma stretch_induction {motive : Text → Prop} (hd : d ≠ []) (escaping : Bool)
    (none : ∀ s, Clear d s [] → motive s)
    (single : ∀ before tail, Clear d before (d ++ tail) → (escaping = true → ¬ d <+: tail) →
      motive (before ++ d ++ tail))
    (pair : escaping = true → ∀ before s, Clear d before (d ++ (d ++ s)) → motive s →
      motive (before ++ d ++ (d ++ s)))
    (s : Text) : motive s := by
  induction hlength : s.length using Nat.strongRecOn generalizing s with
  | _ n ih =>
    cases hsplit : splitAtFirst? d s with
    | none => exact none s (splitAtFirst_eq_none_iff.1 hsplit)
    | some p =>
      obtain ⟨before, tail⟩ := p
      have hclear := clear_of_splitAtFirst hsplit
      have hshort := length_lt_of_splitAtFirst? hd hsplit
      obtain rfl := splitAtFirst_append hsplit
      by_cases hlast : escaping = true ∧ d <+: tail
      · obtain ⟨hescape, rest, rfl⟩ := hlast
        apply pair hescape before rest hclear
        apply ih rest.length _ rest rfl
        simp at hshort hlength
        omega
      · exact single before tail hclear fun hescape hinit => hlast ⟨hescape, hinit⟩

section

variable (hd : d ≠ []) {escaping : Bool}

lemma read_eq (s : Text) : read d hd escaping s = match splitAtFirst? d s with
    | none => ⟨s, false, []⟩
    | some (before, after) =>
      if escaping && d.isPrefixOf after then
        let next := read d hd escaping (after.drop d.length)
        { next with text := before ++ d ++ next.text }
      else ⟨before, true, after⟩ := by
  rw [read]
  split <;> simp_all

lemma read_clear (h : Clear d s []) : read d hd escaping s = ⟨s, false, []⟩ := by
  rw [read_eq, splitAtFirst_eq_none_iff.2 h]

lemma read_single (h : Clear d before (d ++ tail)) (hlast : escaping = true → ¬ d <+: tail) :
    read d hd escaping (before ++ d ++ tail) = ⟨before, true, tail⟩ := by
  have hsingle : ¬ (escaping && d.isPrefixOf tail) = true := by
    rw [Bool.and_eq_true, List.isPrefixOf_iff_prefix]
    exact fun hboth => hlast hboth.1 hboth.2
  rw [read_eq, splitAtFirst_of_clear hd h]
  exact if_neg hsingle

lemma read_pair (h : Clear d before (d ++ (d ++ s))) : read d hd true (before ++ d ++ (d ++ s)) =
    { read d hd true s with text := before ++ d ++ (read d hd true s).text } := by
  have hinit : d.isPrefixOf (d ++ s) = true :=
    List.isPrefixOf_iff_prefix.2 (List.prefix_append d s)
  rw [read_eq, splitAtFirst_of_clear hd h]
  simp [hinit]

def ending (d : Text) (f : Field) : Text := if f.closed then d ++ f.rest else []

lemma read_ends (escaping : Bool) (s : Text) : if (read d hd escaping s).closed then
    escaping = true → ¬ d <+: (read d hd escaping s).rest else (read d hd escaping s).rest = [] := by
  induction s using stretch_induction hd escaping with
  | none s hclear =>
    rw [read_clear hd hclear]
    rfl
  | single before tail hclear hlast =>
    rw [read_single hd hclear hlast]
    exact hlast
  | pair hescape before s hclear ih =>
    subst hescape
    rw [read_pair hd hclear]
    exact ih

lemma read_passes_plain (s : Text) : s = (read d hd false s).text ++ (read d hd false s).ending d ∧
    Clear d (read d hd false s).text ((read d hd false s).ending d) := by
  induction s using stretch_induction hd false with
  | none s hclear =>
    rw [read_clear hd hclear]
    exact ⟨(List.append_nil s).symm, hclear⟩
  | single before tail hclear hlast =>
    rw [read_single hd hclear hlast]
    exact ⟨List.append_assoc before d tail, hclear⟩
  | pair hescape => exact absurd hescape Bool.false_ne_true

lemma read_passes (s : Text) : ∃ raw, s = raw ++ (read d hd true s).ending d ∧
    Paired d ((read d hd true s).ending d) raw ∧ collapse d raw = (read d hd true s).text := by
  induction s using stretch_induction hd true with
  | none s hclear =>
    rw [read_clear hd hclear]
    exact ⟨s, (List.append_nil s).symm, .clear hclear, collapse_of_clear hclear⟩
  | single before tail hclear hlast =>
    rw [read_single hd hclear hlast]
    refine ⟨before, List.append_assoc before d tail, .clear hclear, ?_⟩
    exact collapse_of_clear (hclear.shorten List.nil_prefix)
  | pair _ before s hclear ih =>
    obtain ⟨raw, hraw, hpaired, htext⟩ := ih
    have hending : (read d hd true (before ++ d ++ (d ++ s))).ending d =
        (read d hd true s).ending d := by
      rw [read_pair hd hclear]
      rfl
    rw [hending, read_pair hd hclear, ← htext]
    refine ⟨before ++ (d ++ (d ++ raw)), ?_, .pair ?_ hpaired, collapse_pair hd ?_⟩
    · simp [← hraw]
    · rwa [← hraw]
    · apply hclear.shorten
      rw [List.prefix_append_right_inj, List.prefix_append_right_inj]
      exact ⟨_, hraw.symm⟩

end

/-- No proper part of `d` other than the empty one both begins and ends it. -/
def Unbordered (d : Text) : Prop := ∀ b, b <+: d → b <:+ d → b ≠ [] → b = d

lemma unbordered_singleton (c : Char) : Unbordered [c] := by
  intro b hbegin _ hb
  exact hbegin.eq_of_length_le (List.length_pos_iff.2 hb)

instance (d : Text) : Decidable (Unbordered d) :=
  decidable_of_iff (∀ n < d.length, d.take n <:+ d → n = 0) <| by
    constructor
    · intro h b hbegin hend hb
      rw [List.prefix_iff_eq_take] at hbegin
      rcases Nat.lt_or_ge b.length d.length with hlt | hge
      · rw [hbegin] at hend
        exact absurd (List.length_eq_zero_iff.1 (h b.length hlt hend)) hb
      · rwa [List.take_of_length_le hge] at hbegin
    · intro h n hn hend
      have hlength : (d.take n).length = n := List.length_take_of_le (Nat.le_of_lt hn)
      by_cases hnil : d.take n = []
      · rw [← hlength, hnil, List.length_nil]
      · rw [h (d.take n) (List.take_prefix n d) hend hnil] at hlength
        exact absurd hlength (Nat.ne_of_gt hn)

lemma Unbordered.clear (hborder : Unbordered d) (h : Clear d before []) (tail : Text) :
    Clear d before (d ++ tail) := by
  induction before with
  | nil => exact trivial
  | cons c before ih =>
    refine ⟨fun hinit => ?_, ih h.2⟩
    rw [← List.cons_append] at hinit
    have hstart : c :: before <+: c :: before ++ (d ++ tail) := List.prefix_append _ _
    rcases List.prefix_or_prefix_of_prefix hinit hstart with hinside | ⟨extra, rfl⟩
    · apply h.1
      rwa [List.append_nil]
    · cases extra with
      | nil =>
        rw [List.append_nil] at h
        exact h.1 (List.prefix_append (c :: before) [])
      | cons b extra =>
        -- what reaches over begins the delimiter and ends it
        have hover : b :: extra <+: c :: before ++ b :: extra := by
          refine List.prefix_of_prefix_length_le ?_ (List.prefix_append _ tail) (by simp; omega)
          exact (List.prefix_append_right_inj _).1 hinit
        have hlength := congrArg List.length
          (hborder (b :: extra) hover (List.suffix_append _ _) (List.cons_ne_nil b extra))
        simp at hlength
        omega

def Splits (d s p t : Text) : Prop := s = escaped d p ++ d ++ t ∧ ¬ d <+: t

lemma escaped_of_clear (h : Clear d p []) : escaped d p = p := by
  simpa [escaped] using escaped_clear h

lemma escaped_occurrence (hd : d ≠ []) (h : Clear d before (d ++ p)) :
    escaped d (before ++ d ++ p) = before ++ d ++ (d ++ escaped d p) := by
  rw [List.append_assoc, escaped_clear h, escaped_delimiter hd]
  simp

lemma occurrence_induction {motive : Text → Prop} (hd : d ≠ [])
    (none : ∀ p, Clear d p [] → motive p)
    (some : ∀ before p, Clear d before (d ++ p) → motive p → motive (before ++ d ++ p))
    (p : Text) : motive p := by
  induction hlength : p.length using Nat.strongRecOn generalizing p with
  | _ n ih =>
    cases hsplit : splitAtFirst? d p with
    | none => exact none p (splitAtFirst_eq_none_iff.1 hsplit)
    | some parts =>
      obtain ⟨before, rest⟩ := parts
      have hshort := length_lt_of_splitAtFirst? hd hsplit
      have hmotive := ih rest.length (hlength ▸ hshort) rest rfl
      rw [splitAtFirst_append hsplit]
      exact some before rest (clear_of_splitAtFirst hsplit) hmotive

lemma read_of_splits (hd : d ≠ []) (hborder : Unbordered d) (h : Splits d s p t) :
    read d hd true s = ⟨p, true, t⟩ := by
  obtain ⟨rfl, hlast⟩ := h
  induction p using occurrence_induction hd with
  | none p hclear =>
    rw [escaped_of_clear hclear]
    exact read_single hd (hborder.clear hclear t) fun _ => hlast
  | some before p hclear ih =>
    have hrest := hborder.clear (hclear.shorten List.nil_prefix) (d ++ (escaped d p ++ d ++ t))
    have heq : escaped d (before ++ d ++ p) ++ d ++ t =
        before ++ d ++ (d ++ (escaped d p ++ d ++ t)) := by
      rw [escaped_occurrence hd hclear]
      simp
    rw [heq, read_pair hd hrest, ih]

lemma splits_of_read (hd : d ≠ []) (hborder : Unbordered d) (h : (read d hd true s).closed = true) :
    Splits d s (read d hd true s).text (read d hd true s).rest := by
  induction s using stretch_induction hd true with
  | none s hclear =>
    rw [read_clear hd hclear] at h
    exact absurd h Bool.false_ne_true
  | single before tail hclear hlast =>
    rw [read_single hd hclear hlast]
    exact ⟨by rw [escaped_of_clear (hclear.shorten List.nil_prefix)], hlast rfl⟩
  | pair _ before s hclear ih =>
    rw [read_pair hd hclear] at h ⊢
    obtain ⟨hs, hlast⟩ := ih h
    refine ⟨?_, hlast⟩
    have hbefore := hborder.clear (hclear.shorten List.nil_prefix) (read d hd true s).text
    simp only [escaped_occurrence hd hbefore]
    simpa using hs

lemma splits_iff_read (hd : d ≠ []) (hborder : Unbordered d) :
    Splits d s p t ↔ read d hd true s = ⟨p, true, t⟩ := by
  refine ⟨read_of_splits hd hborder, fun h => ?_⟩
  have hsplits := splits_of_read hd hborder (s := s) (by rw [h])
  rwa [h] at hsplits

end Field

namespace Cursor

open LexRules.Field

variable {d p t : Text}

lemma takeField_escaping (hd : d ≠ []) (c : Cursor) : c.takeField? d true =
    if (read d hd true c.remaining).closed then some (c.takeUntil d true) else none := by
  rw [takeField?, takeUntil, dif_neg hd, dif_neg hd]

lemma moveTo_nil (c : Cursor) : c.moveTo [] = ⟨c.source, []⟩ := by
  simp [moveTo, advance, source]

lemma takeField_of_splits (hd : d ≠ []) (hborder : Unbordered d) {c : Cursor}
    (h : Splits d c.remaining p t) :
    ∃ next, c.takeField? d true = some (p, next) ∧ next.remaining = t := by
  have hread := (splits_iff_read hd hborder).1 h
  refine ⟨c.moveTo t, ?_, ?_⟩
  · rw [takeField?, dif_neg hd, hread]
    rfl
  · exact remaining_moveTo (s := escaped d p ++ d) h.1

lemma splits_of_takeField (hd : d ≠ []) (hborder : Unbordered d) {c next : Cursor}
    (h : c.takeField? d true = some (p, next)) : Splits d c.remaining p next.remaining := by
  rw [takeField_escaping hd, takeUntil, dif_neg hd] at h
  split at h
  · rename_i hclosed
    have hsplits := splits_of_read hd hborder hclosed
    obtain ⟨rfl, rfl⟩ := Prod.mk.inj (Option.some.inj h)
    rwa [remaining_moveTo hsplits.1]
  · exact absurd h nofun

structure Unescapes (d : Text) (c : Cursor) : Prop where
  field_iff : ∀ p t, (∃ next, c.takeField? d true = some (p, next) ∧ next.remaining = t) ↔
    Splits d c.remaining p t
  none_iff : c.takeField? d true = none ↔ ¬ ∃ p t, Splits d c.remaining p t
  unique : ∀ p t q u, Splits d c.remaining p t → Splits d c.remaining q u → p = q ∧ t = u
  until_field : ∀ field, c.takeField? d true = some field → c.takeUntil d true = field
  until_rest : c.takeField? d true = none →
    c.takeUntil d true = (collapse d c.remaining, ⟨c.source, []⟩)

theorem unescapes_unbordered : (∀ sep : Char, Unbordered [sep]) ∧
    ∀ d : Text, d ≠ [] → Unbordered d → ∀ c : Cursor, c.Unescapes d := by
  refine ⟨unbordered_singleton, fun d hd hborder c => ?_⟩
  constructor
  case field_iff =>
    refine fun p t => ⟨?_, takeField_of_splits hd hborder⟩
    rintro ⟨next, hnext, rfl⟩
    exact splits_of_takeField hd hborder hnext
  case none_iff =>
    constructor
    · rintro hnone ⟨p, t, hsplits⟩
      obtain ⟨next, hnext, -⟩ := takeField_of_splits hd hborder hsplits
      exact absurd (hnone.symm.trans hnext) nofun
    · intro hsplits
      apply Option.eq_none_iff_forall_ne_some.2
      rintro ⟨p, next⟩ hnext
      exact hsplits ⟨p, next.remaining, splits_of_takeField hd hborder hnext⟩
  case unique =>
    intro p t q u hsplits hother
    have hread := ((splits_iff_read hd hborder).1 hsplits).symm.trans
      ((splits_iff_read hd hborder).1 hother)
    exact ⟨congrArg Field.text hread, congrArg Field.rest hread⟩
  case until_field =>
    intro field hfield
    rw [takeField_escaping hd] at hfield
    split at hfield
    · exact Option.some.inj hfield
    · exact absurd hfield nofun
  case until_rest =>
    intro hnone
    rw [takeField_escaping hd] at hnone
    split at hnone
    · exact absurd hnone nofun
    · rename_i hclosed
      obtain ⟨raw, hraw, -, htext⟩ := read_passes hd c.remaining
      have hends := read_ends hd true c.remaining
      rw [ending, if_neg hclosed, List.append_nil] at hraw
      rw [if_neg hclosed] at hends
      subst hraw
      simp only [takeUntil, dif_neg hd, hends, ← htext, moveTo_nil]

theorem unescapes_two_characters :
    Unbordered "é/".toList ∧ (Cursor.mk ['x'] "aé/é/é/b".toList).Unescapes "é/".toList ∧
      (Cursor.mk ['x'] "aé/é/é/b".toList).takeField? "é/".toList true =
        some ("aé/".toList, ⟨"xaé/é/é/".toList, ['b']⟩) := by
  have hborder : Unbordered "é/".toList := by decide
  have hread : Field.read "é/".toList (by simp) true "aé/é/é/b".toList = ⟨"aé/".toList, true, ['b']⟩ := by
    simp [Field.read_eq, Field.splitAtFirst?]
  refine ⟨hborder, unescapes_unbordered.2 _ (by simp) hborder _, ?_⟩
  rw [takeField?, dif_neg (by simp), hread]
  rfl

end Cursor

end LexRules
