import LexRules.Proofs.Cursor.Doubling

/-! Fields that end at a single character, which stands for itself where it is doubled. Nothing is read
that does not stand in the text. -/

namespace LexRules

namespace Field

lemma read_sublist {d : Text} (hd : d ≠ []) (escaping : Bool) (s : Text) :
    ((read d hd escaping s).text ++ (read d hd escaping s).rest).Sublist s ∧
      (read d hd escaping s).rest <:+ s := by
  fun_induction read d hd escaping s with
  | case1 s hnone => simp
  | case2 s before after hsplit hlt hescape next ih =>
    have hdrop : after.drop d.length <:+ after := List.drop_suffix d.length after
    rw [splitAtFirst_append hsplit]
    constructor
    · simp only [List.append_assoc]
      apply List.Sublist.append_left
      apply List.Sublist.append_left
      exact ih.1.trans hdrop.sublist
    · exact (ih.2.trans hdrop).trans (List.suffix_append _ _)
  | case3 s before after hsplit hlt hescape =>
    rw [splitAtFirst_append hsplit]
    constructor
    · simp
    · exact List.suffix_append _ _

def doubled (sep : Char) (t : Text) : Text := t.flatMap fun c => if c = sep then [sep, sep] else [c]

lemma escaped_singleton (sep : Char) (t : Text) : escaped [sep] t = doubled sep t := by
  induction t with
  | nil => simp [escaped, doubled]
  | cons c t ih =>
    rw [doubled] at ih
    rw [escaped, doubled, List.flatMap_cons, ← ih]
    by_cases hc : c = sep
    · simp [hc]
    · simp [hc, Ne.symm hc]

lemma mem_of_mem_doubled {sep c : Char} {t : Text} (h : c ∈ doubled sep t) : c ∈ t := by
  obtain ⟨b, hb, hc⟩ := List.mem_flatMap.1 h
  split at hc
  · rename_i hsep
    have heq : c = sep := by simpa using hc
    rwa [heq, ← hsep]
  · rwa [List.mem_singleton.1 hc]

end Field

namespace Cursor

lemma takeField_sublist {c next : Cursor} {d t : Text} {escaping : Bool}
    (h : c.takeField? d escaping = some (t, next)) : (t ++ next.remaining).Sublist c.remaining := by
  rw [takeField?] at h
  split at h
  · cases h
  · rename_i hd
    obtain ⟨hsublist, s, hs⟩ := Field.read_sublist hd escaping c.remaining
    simp only at h
    split at h
    · obtain ⟨rfl, rfl⟩ := Prod.mk.inj (Option.some.inj h)
      rwa [remaining_moveTo hs.symm]
    · cases h

lemma takeField_doubled {c : Cursor} {sep : Char} {t rest : Text} (hrest : rest.head? ≠ some sep)
    (h : c.remaining = Field.doubled sep t ++ sep :: rest) :
    ∃ next, c.takeField? [sep] true = some (t, next) ∧ next.remaining = rest := by
  apply takeField_of_splits (by simp) (Field.unbordered_singleton sep)
  refine ⟨by rw [h, Field.escaped_singleton]; simp, fun hinit => hrest ?_⟩
  obtain ⟨behind, rfl⟩ := hinit
  rfl

end Cursor

end LexRules
