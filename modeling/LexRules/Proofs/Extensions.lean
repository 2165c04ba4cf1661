import LexRules.Proofs.Path.Recasing
import Mathlib.Data.Char
import Mathlib.Data.List.Lex
import Mathlib.Data.List.Sort

/-! Sets of extensions by what is in them. A set keeps its entries in order, so it is settled by what
was inserted, however often and in whatever order, and a path is matched by its extension in lower
case. -/

namespace LexRules.Extensions

variable {set other : Extensions} {entries : List Text} {d e s : Text} {spelled : List Text}

lemma mem_place : d ∈ place e entries ↔ d = e ∨ d ∈ entries := by
  induction entries with
  | nil => simp [place]
  | cons first rest ih =>
    rw [place]
    split
    · rename_i heq
      simp [heq]
    · split
      · simp
      · rw [List.mem_cons, ih, List.mem_cons, or_left_comm]

def Ordered (set : Extensions) : Prop := set.entries.Pairwise (· < ·)

lemma pairwise_place (h : entries.Pairwise (· < ·)) : (place e entries).Pairwise (· < ·) := by
  induction entries with
  | nil => exact List.pairwise_singleton _ _
  | cons first rest ih =>
    obtain ⟨hfirst, hrest⟩ := List.pairwise_cons.1 h
    rw [place]
    split
    · exact h
    · rename_i hne
      split
      · rename_i hlt
        refine List.pairwise_cons.2 ⟨?_, h⟩
        exact List.forall_mem_cons.2 ⟨hlt, fun d hd => hlt.trans (hfirst d hd)⟩
      · rename_i hnot
        refine List.pairwise_cons.2 ⟨fun d hd => ?_, ih hrest⟩
        rcases mem_place.1 hd with rfl | hd
        · exact lt_of_le_of_ne (not_lt.1 hnot) (Ne.symm hne)
        · exact hfirst d hd

lemma insert_of_new (hne : entryOf s ≠ []) (hnew : entryOf s ∉ set.entries) :
    set.insert s = (true, ⟨place (entryOf s) set.entries⟩) :=
  if_neg (not_or_intro hne hnew)

lemma insert_of_known (h : entryOf s = [] ∨ entryOf s ∈ set.entries) : set.insert s = (false, set) :=
  if_pos h

lemma mem_add : d ∈ (set.add s).entries ↔ d ∈ set.entries ∨ d ≠ [] ∧ entryOf s = d := by
  rw [add]
  by_cases h : entryOf s = [] ∨ entryOf s ∈ set.entries
  · rw [insert_of_known h]
    refine (or_iff_left_of_imp ?_).symm
    rintro ⟨hne, rfl⟩
    exact h.resolve_left hne
  · rw [not_or] at h
    rw [insert_of_new h.1 h.2, mem_place, or_comm]
    refine or_congr_right ⟨?_, fun hd => hd.2.symm⟩
    rintro rfl
    exact ⟨h.1, rfl⟩

lemma Ordered.add (h : set.Ordered) (s : Text) : (set.add s).Ordered := by
  rw [Extensions.add, insert]
  split
  · exact h
  · exact pairwise_place h

lemma ofList_snoc (spelled : List Text) (s : Text) :
    ofList (spelled ++ [s]) = (ofList spelled).add s := by
  rw [ofList, addAll, List.foldl_append]
  rfl

lemma ordered_ofList (spelled : List Text) : (ofList spelled).Ordered := by
  induction spelled using List.reverseRecOn with
  | nil => exact List.Pairwise.nil
  | append_singleton spelled s ih => exact ofList_snoc spelled s ▸ ih.add s

lemma mem_ofList : d ∈ (ofList spelled).entries ↔ d ≠ [] ∧ ∃ s ∈ spelled, entryOf s = d := by
  induction spelled using List.reverseRecOn with
  | nil => simp [ofList, addAll, empty]
  | append_singleton spelled s ih =>
    rw [ofList_snoc, mem_add, ih, ← and_or_left]
    simp [or_and_right, exists_or]

lemma Ordered.ext (hset : set.Ordered) (hother : other.Ordered)
    (h : ∀ d, d ∈ set.entries ↔ d ∈ other.entries) : set = other := by
  cases set
  cases other
  exact congrArg mk (List.Pairwise.eq_of_mem_iff hset hother h)

lemma ofList_congr {others : List Text} (h : ∀ s, s ∈ spelled ↔ s ∈ others) :
    ofList spelled = ofList others := by
  refine (ordered_ofList spelled).ext (ordered_ofList others) fun d => ?_
  simp only [mem_ofList, h]

lemma entryFor_eq_some_iff {path : Path} : set.entryFor? path = some e ↔
    ∃ ext, (Path.extension? path).bind Text.decodeUtf8 = some ext ∧ e = Text.lowerCase ext ∧
      e ∈ set.entries := by
  rw [entryFor?, Option.bind_eq_some_iff]
  refine exists_congr fun ext => and_congr_right fun _ => ?_
  constructor
  · intro h
    have heq := List.find?_some h
    exact ⟨beq_iff_eq.1 heq, List.mem_of_find?_eq_some h⟩
  · rintro ⟨rfl, hmem⟩
    cases hfind : set.entries.find? fun entry => entry == Text.lowerCase ext with
    | none => exact absurd BEq.rfl (List.find?_eq_none.1 hfind _ hmem)
    | some d =>
      have heq := List.find?_some hfind
      exact congrArg some (beq_iff_eq.1 heq)

lemma dropWhile_dots {dots : Text} (hdots : ∀ c ∈ dots, c = '.') (he : e.head? ≠ some '.') :
    (dots ++ e).dropWhile (· == '.') = e := by
  rw [List.dropWhile_append_of_pos fun c hc => beq_iff_eq.2 (hdots c hc)]
  cases e with
  | nil => rfl
  | cons c e =>
    rw [List.dropWhile_cons_of_neg]
    intro hc
    exact he (congrArg some (beq_iff_eq.1 hc))

lemma trim_dots_append {dots : Text} (hdots : ∀ c ∈ dots, c = '.') (htrim : Text.trim e = e) :
    Text.trim (dots ++ e) = dots ++ e := by
  have hdot : ∀ c ∈ dots, Text.isBlank c = false := by
    intro c hc
    rw [hdots c hc]
    decide
  rw [Text.trim_eq_self_iff, Text.trimStart_eq_self_iff, Text.trimEnd_eq_self_iff] at htrim ⊢
  constructor
  · cases dots with
    | nil => exact htrim.1
    | cons c dots => simp [hdot c List.mem_cons_self]
  · by_cases hnil : e = []
    · rw [hnil, List.append_nil]
      intro hlast
      obtain ⟨c, hc, hblank⟩ := Option.map_eq_some_iff.1 hlast
      exact Bool.false_ne_true ((hdot c (List.mem_of_getLast? hc)).symm.trans hblank)
    · rw [List.getLast?_append_of_ne_nil dots hnil]
      exact htrim.2

lemma entryOf_padded {before dots behind : Text} (hbefore : Text.allBlank before = true)
    (hdots : ∀ c ∈ dots, c = '.') (hbehind : Text.allBlank behind = true) (htrim : Text.trim e = e)
    (he : e.head? ≠ some '.') : entryOf (before ++ dots ++ e ++ behind) = Text.lowerCase e := by
  rw [entryOf, Text.trim_append_blank _ hbehind, List.append_assoc, Text.trim_blank_append _ hbefore,
    trim_dots_append hdots htrim, dropWhile_dots hdots he]

lemma entryOf_of_trimmed (htrim : Text.trim e = e) (he : e.head? ≠ some '.') :
    entryOf e = Text.lowerCase e := by
  have hpadded : entryOf ([] ++ [] ++ e ++ []) = Text.lowerCase e :=
    entryOf_padded rfl (by simp) rfl htrim he
  simpa using hpadded

lemma insert_congr {t : Text} (h : entryOf s = entryOf t) : set.insert s = set.insert t := by
  rw [insert, insert, h]

lemma entryFor_recased {path twin : Path} (h : Path.Recased path twin) :
    set.entryFor? path = set.entryFor? twin := by
  have hbytes : (Path.extension? path).map (List.map Text.lowerByte) =
      (Path.extension? twin).map (List.map Text.lowerByte) := by
    rw [← Path.extension_map, h, Path.extension_map]
  have hext : ((Path.extension? path).bind Text.decodeUtf8).map (List.map Binary64.lowerAscii) =
      ((Path.extension? twin).bind Text.decodeUtf8).map (List.map Binary64.lowerAscii) := by
    simpa only [Option.bind_map, Option.map_bind, Function.comp_def, Text.decodeUtf8_map] using
      congrArg (Option.bind · Text.decodeUtf8) hbytes
  rw [entryFor?, entryFor?]
  cases hpath : (Path.extension? path).bind Text.decodeUtf8 with
  | none =>
    rw [hpath, Option.map_none, eq_comm, Option.map_eq_none_iff] at hext
    rw [hext]
  | some ext =>
    rw [hpath, Option.map_some, eq_comm, Option.map_eq_some_iff] at hext
    obtain ⟨other, hother, hrecased⟩ := hext
    rw [hother, Option.bind_some, Option.bind_some, Text.Recased.lowerCase_eq hrecased]

lemma insert_reports (set : Extensions) (s : Text) :
    ((set.insert s).1 = true ↔ ∃ e ∈ (set.add s).entries, e ∉ set.entries) ∧
    ((set.insert s).1 = false → set.add s = set) := by
  rw [add]
  by_cases h : entryOf s = [] ∨ entryOf s ∈ set.entries
  · rw [insert_of_known h]
    exact ⟨iff_of_false Bool.false_ne_true fun ⟨_, hmem, hnew⟩ => hnew hmem, fun _ => rfl⟩
  · rw [not_or] at h
    rw [insert_of_new h.1 h.2]
    exact ⟨iff_of_true rfl ⟨entryOf s, mem_place.2 (Or.inl rfl), h.2⟩, fun h => Bool.noConfusion h⟩

structure Settled (spelled : List Text) : Prop where
  /-- A path is matched by its extension in lower case, where an extension spelled so is among them.
  What has a lower case is a text, so an extension that is no UTF-8 is matched by nothing. -/
  entryFor_iff : ∀ path e, (ofList spelled).entryFor? path = some e ↔
    ∃ bytes ext, Path.extension? path = some bytes ∧ Text.decodeUtf8 bytes = some ext ∧
      e = Text.lowerCase ext ∧ e ≠ [] ∧
      ∃ s ∈ spelled, e = Text.lowerCase ((Text.trim s).dropWhile (· == '.'))
  unordered : ∀ others, (∀ s, s ∈ spelled ↔ s ∈ others) → ofList spelled = ofList others
  insert_next : ∀ s, ((ofList spelled).insert s).2 = ofList (spelled ++ [s])
  insert_new : ∀ s, ((ofList spelled).insert s).1 = true ↔
    ∃ e ∈ (ofList (spelled ++ [s])).entries, e ∉ (ofList spelled).entries
  insert_known : ∀ s, ((ofList spelled).insert s).1 = false → ofList (spelled ++ [s]) = ofList spelled
  insert_padded : ∀ e t before dots behind, Text.trim e = e → e.head? ≠ some '.' → Text.Recased e t →
    Text.allBlank before = true → (∀ c ∈ dots, c = '.') → Text.allBlank behind = true →
    (ofList spelled).insert (before ++ dots ++ t ++ behind) = (ofList spelled).insert e
  recased : ∀ path twin, Path.Recased path twin →
    (ofList spelled).entryFor? path = (ofList spelled).entryFor? twin

theorem ofList_settled (spelled : List Text) : Settled spelled where
  entryFor_iff path e := by
    rw [entryFor_eq_some_iff, mem_ofList]
    simp only [entryOf, Option.bind_eq_some_iff, eq_comm (b := e)]
    tauto
  unordered _ h := ofList_congr h
  insert_next s := (ofList_snoc spelled s).symm
  insert_new s := by
    rw [ofList_snoc]
    exact (insert_reports (ofList spelled) s).1
  insert_known s h := by
    rw [ofList_snoc]
    exact (insert_reports (ofList spelled) s).2 h
  insert_padded e t before dots behind htrim he hrecased hbefore hdots hbehind := by
    apply insert_congr
    rw [entryOf_padded hbefore hdots hbehind (hrecased.trim_eq_self htrim) (hrecased.head_ne_dot he),
      entryOf_of_trimmed htrim he, hrecased.lowerCase_eq]
  recased _ _ h := entryFor_recased h

end LexRules.Extensions
