import LexRules.Proofs.Path.Components
import LexRules.Proofs.Text.Utf8
import Mathlib.Data.List.Infix

/-! Paths as they are seen from a root. What is seen of a path below the root are the components that
the root does not have, so that paths which are not the same do not look the same; and they are not
shown as the same text, unless that text stands for bytes that are no UTF-8. -/

namespace LexRules

namespace Path

variable {root path fragment p q : Path} {pieces : List Name}

lemma segments_joinWith (hne : pieces ≠ []) (h : ∀ s ∈ pieces, slash ∉ s) :
    segments (Text.joinWith [slash] pieces) = pieces :=
  Text.splitOn_joinWith hne h

lemma not_mem_of_mem_segments {s : Name} (h : s ∈ segments path) : slash ∉ s :=
  Text.not_mem_of_mem_splitOn h

lemma components_joinWith (hslash : ∀ s ∈ pieces, slash ∉ s)
    (hfirst : ∀ s ∈ pieces.head?, isVoid s = false) :
    components (Text.joinWith [slash] pieces) = pieces.filterMap component? := by
  cases pieces with
  | nil => rfl
  | cons first rest =>
    have hpieces := segments_joinWith (List.cons_ne_nil first rest) hslash
    have hsolid : isVoid first = false := hfirst first rfl
    rw [components_plain, hpieces]
    · apply eq_false_of_ne_true
      intro habsolute
      rw [first_void_of_isAbsolute habsolute hpieces] at hsolid
      exact absurd hsolid nofun
    · rw [hpieces]
      intro hhere
      rw [Option.some.inj hhere] at hsolid
      exact absurd hsolid nofun

lemma filterMap_dropComponents (n : Nat) (pieces : List Name) :
    (dropComponents n pieces).filterMap component? = (pieces.filterMap component?).drop n := by
  fun_induction dropComponents n pieces with
  | case1 pieces => rfl
  | case2 n => exact List.drop_nil.symm
  | case3 n s rest hvoid ih => rw [ih, List.filterMap_cons, component_void hvoid]
  | case4 n s rest hsolid ih =>
    obtain ⟨c, hc, -⟩ := component_of_not_void (eq_false_of_ne_true hsolid)
    rw [ih, List.filterMap_cons, hc]
    rfl

lemma dropComponents_subset (n : Nat) (pieces : List Name) : dropComponents n pieces ⊆ pieces := by
  fun_induction dropComponents n pieces with
  | case1 pieces => exact List.Subset.refl pieces
  | case2 n => exact List.Subset.refl []
  | case3 n s rest hvoid ih => exact List.subset_cons_of_subset s ih
  | case4 n s rest hsolid ih => exact List.subset_cons_of_subset s ih

lemma filterMap_dropWhile (pieces : List Name) :
    (pieces.dropWhile isVoid).filterMap component? = pieces.filterMap component? := by
  induction pieces with
  | nil => rfl
  | cons s pieces ih =>
    rw [List.dropWhile_cons]
    split
    · rename_i hvoid
      rw [ih, List.filterMap_cons, component_void hvoid]
    · rfl

lemma filterMap_trimVoid (pieces : List Name) :
    (trimVoid pieces).filterMap component? = pieces.filterMap component? := by
  rw [trimVoid, List.filterMap_reverse, filterMap_dropWhile, List.filterMap_reverse,
    List.reverse_reverse, filterMap_dropWhile]

lemma trimVoid_isPrefix (pieces : List Name) : trimVoid pieces <+: pieces.dropWhile isVoid := by
  rw [← List.reverse_suffix, trimVoid, List.reverse_reverse]
  exact List.dropWhile_suffix isVoid

lemma trimVoid_subset (pieces : List Name) : trimVoid pieces ⊆ pieces :=
  List.Subset.trans (trimVoid_isPrefix pieces).subset (List.dropWhile_suffix isVoid).subset

lemma not_void_of_trimVoid {s : Name} (h : s ∈ (trimVoid pieces).head?) : isVoid s = false := by
  obtain ⟨behind, hbehind⟩ := trimVoid_isPrefix pieces
  have hhead : (pieces.dropWhile isVoid).head? = some s := by
    rw [← hbehind, List.head?_append, h, Option.some_or]
  have hstop := List.head?_dropWhile_not isVoid pieces
  rwa [hhead] at hstop

lemma first_ne_nil {first : Name} {rest : List Name} (hpath : path ≠ [])
    (hrelative : isAbsolute path = false) (h : segments path = first :: rest) : first ≠ [] := by
  obtain ⟨c, path, rfl⟩ := List.exists_cons_of_ne_nil hpath
  have hc : c ≠ slash := by
    rintro rfl
    exact absurd hrelative nofun
  rw [segments, Text.splitOn, if_neg hc] at h
  split at h
  · exact (List.cons.inj h).1 ▸ List.cons_ne_nil _ _
  · exact (List.cons.inj h).1 ▸ List.cons_ne_nil _ _

lemma components_ne_nil (h : path ≠ []) : components path ≠ [] := by
  cases hpath : segments path with
  | nil => exact absurd hpath (Text.splitOn_ne_nil slash path)
  | cons first rest =>
    by_cases hmarked : isAbsolute path = true ∨ first = [dot]
    · obtain ⟨mark, heq, -⟩ := components_marked hpath hmarked
      exact heq ▸ List.cons_ne_nil _ _
    · rw [not_or, Bool.not_eq_true] at hmarked
      have hsolid : isVoid first = false := by
        simp [isVoid, first_ne_nil h hmarked.1 hpath, hmarked.2]
      obtain ⟨c, hc, -⟩ := component_of_not_void hsolid
      rw [components_plain hmarked.1 (by simp [hpath, hmarked.2]), hpath, List.filterMap_cons, hc]
      exact List.cons_ne_nil _ _

lemma components_left {left : List Name} (hroot : components root <+: components path)
    (hsubset : left ⊆ segments path)
    (hleft : left.filterMap component? = (components path).drop (components root).length) :
    components path = components root ++ components (Text.joinWith [slash] (trimVoid left)) ∧
      ∀ c ∈ components (Text.joinWith [slash] (trimVoid left)), c.isStep = true := by
  rw [components_joinWith, filterMap_trimVoid]
  · refine ⟨?_, fun c hc => (isStep_of_mem hc).1⟩
    rw [hleft, List.prefix_iff_eq_append.1 hroot]
  · exact fun s hs => not_mem_of_mem_segments (hsubset (trimVoid_subset left hs))
  · exact fun s hs => not_void_of_trimVoid hs

/-- What is shown of a path below the root are the components behind those of the root. -/
lemma components_below (hroot : root ≠ []) (h : below? root path = some p) :
    components path = components root ++ components p ∧ ∀ c ∈ components p, c.isStep = true := by
  rw [below?, if_neg hroot] at h
  simp only at h
  split at h
  case isFalse => exact absurd h nofun
  rename_i habove
  have hinit : components root <+: components path := List.isPrefixOf_iff_prefix.1 habove
  obtain ⟨count, hcount⟩ := Nat.exists_eq_add_one.2 (List.length_pos_of_ne_nil (components_ne_nil hroot))
  obtain rfl := Option.some.inj h
  apply components_left hinit
  · split
    · exact List.Subset.trans (dropComponents_subset _ _) (List.drop_subset 1 _)
    · exact dropComponents_subset _ _
  · split
    · rename_i hmarked
      rw [Bool.or_eq_true, beq_iff_eq] at hmarked
      cases hpath : segments path with
      | nil => exact absurd hpath (Text.splitOn_ne_nil slash path)
      | cons first rest =>
        rw [hpath, List.head?_cons, Option.some_inj] at hmarked
        obtain ⟨mark, heq, -⟩ := components_marked hpath hmarked
        rw [filterMap_dropComponents, heq, hcount]
        rfl
    · rename_i hplain
      rw [filterMap_dropComponents]
      simp only [Bool.or_eq_true, not_or, Bool.not_eq_true, beq_iff_eq] at hplain
      rw [components_plain hplain.1 hplain.2]

/-- A path that joining fragments to `root` can give. -/
def Within (root path : Path) : Prop :=
  isAbsolute path = true ∨ components root <+: components path

lemma isAbsolute_join (hpath : path ≠ []) (h : isAbsolute fragment = false) :
    isAbsolute (join path fragment) = isAbsolute path := by
  rw [join, h, if_neg Bool.false_ne_true]
  split <;> exact isAbsolute_append hpath

lemma Within.join (h : Within root path) (fragment : Path) : Within root (join path fragment) := by
  by_cases habsolute : isAbsolute fragment = true
  · rw [Path.join, if_pos habsolute]
    exact Or.inl habsolute
  have hrelative := eq_false_of_ne_true habsolute
  by_cases hpath : path = []
  · rw [hpath] at h
    have hnil : components root = [] := List.prefix_nil.1 (h.resolve_left Bool.false_ne_true)
    right
    rw [hnil]
    exact List.nil_prefix
  rcases h with h | h
  · left
    rw [isAbsolute_join hpath hrelative, h]
  · right
    rw [components_join_of_ne_nil hpath hrelative]
    exact h.trans (List.prefix_append _ _)

lemma Within.refl (root : Path) : Within root root := Or.inr (List.prefix_refl _)

lemma Within.under (h : Within root path) (names : List Name) : Within root (under path names) := by
  induction names generalizing path with
  | nil => exact h
  | cons n names ih => exact ih (h.join n)

lemma isAbsolute_below (hroot : root ≠ []) (h : below? root path = some p) : isAbsolute p = false := by
  apply eq_false_of_ne_true
  intro habsolute
  exact absurd ((components_below hroot h).2 _ ((root_mem_components p).2 habsolute)) nofun

lemma below_cases (hroot : root ≠ []) (h : Within root path) :
    below? root path = some (seenFrom root path) ∨
      seenFrom root path = path ∧ isAbsolute path = true := by
  rw [seenFrom]
  cases hbelow : below? root path with
  | some p => exact Or.inl rfl
  | none =>
    refine Or.inr ⟨rfl, h.resolve_right fun habove => ?_⟩
    rw [below?, if_neg hroot, if_pos (List.isPrefixOf_iff_prefix.2 habove)] at hbelow
    exact absurd hbelow nofun

lemma components_eq_of_seen (hp : Within root p) (hq : Within root q)
    (h : seenFrom root p = seenFrom root q) : components p = components q := by
  by_cases hroot : root = []
  · rw [seenFrom, seenFrom, below?, below?, if_pos hroot, if_pos hroot] at h
    exact congrArg components h
  -- what is not below the root is seen whole, and is absolute as nothing is that is seen from below it
  rcases below_cases hroot hp with hbelow | ⟨hseen, habsolute⟩
  · rcases below_cases hroot hq with hbelow' | ⟨hseen, habsolute⟩
    · rw [(components_below hroot hbelow).1, (components_below hroot hbelow').1, h]
    · rw [h, hseen] at hbelow
      exact absurd habsolute (isAbsolute_below hroot hbelow ▸ Bool.false_ne_true)
  · rcases below_cases hroot hq with hbelow | ⟨hseen', -⟩
    · rw [← h, hseen] at hbelow
      exact absurd habsolute (isAbsolute_below hroot hbelow ▸ Bool.false_ne_true)
    · exact congrArg components (hseen.symm.trans (h.trans hseen'))

lemma seen_eq_of_shown {s t : Text} (hp : Text.decodeUtf8 (seenFrom root p) = some s)
    (hq : Text.decodeUtf8 (seenFrom root q) = some t) (h : shownFrom root p = shownFrom root q) :
    seenFrom root p = seenFrom root q := by
  rw [Text.decodeUtf8_eq_some_iff] at hp hq
  rw [shownFrom, shownFrom, hp, hq, Text.decodeLossy_encodeUtf8, Text.decodeLossy_encodeUtf8] at h
  rw [hp, hq, h]

end Path

end LexRules
