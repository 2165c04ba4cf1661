import LexRules.Extensions
import LexRules.Proofs.Text.Split
import Mathlib.Data.List.Induction

/-! Names below a directory: what joining a name to a path does to its components, and which paths
stand below a path. -/

namespace LexRules

namespace Path

structure IsName (n : Name) : Prop where
  ne_nil : n ≠ []
  ne_here : n ≠ [dot]
  ne_parent : n ≠ [dot, dot]
  slash_not_mem : slash ∉ n

instance (n : Name) : Decidable (IsName n) :=
  decidable_of_iff (n ≠ [] ∧ n ≠ [dot] ∧ n ≠ [dot, dot] ∧ slash ∉ n)
    ⟨fun h => ⟨h.1, h.2.1, h.2.2.1, h.2.2.2⟩, fun h => ⟨h.1, h.2, h.3, h.4⟩⟩

lemma IsName.not_absolute {n : Name} (hn : IsName n) : isAbsolute n = false := by
  cases n with
  | nil => rfl
  | cons c n =>
    have hc : c ≠ slash := fun h => hn.slash_not_mem (h ▸ List.mem_cons_self)
    simp [isAbsolute, hc]

lemma IsName.getLast_ne {n : Name} (hn : IsName n) : n.getLast? ≠ some slash :=
  fun h => hn.slash_not_mem (List.mem_of_getLast? h)

lemma segments_name {n : Name} (hn : IsName n) : segments n = [n] :=
  Text.splitOn_of_not_mem hn.slash_not_mem

lemma component_name {n : Name} (hn : IsName n) : component? n = some (.normal n) := by
  have hvoid : isVoid n = false := by simp [isVoid, hn.ne_nil, hn.ne_here]
  rw [component?, hvoid, if_neg Bool.false_ne_true, if_neg hn.ne_parent]

lemma join_cases (dir : Name) {n : Name} (hn : IsName n) :
    (dir = [] ∧ join dir n = n) ∨ (∃ d, dir = d ++ [slash] ∧ join dir n = d ++ slash :: n) ∨
      (dir ≠ [] ∧ dir.getLast? ≠ some slash ∧ join dir n = dir ++ slash :: n) := by
  have habsolute := hn.not_absolute
  by_cases hnil : dir = []
  · exact Or.inl ⟨hnil, by simp [join, habsolute, hnil]⟩
  by_cases hslash : dir.getLast? = some slash
  · obtain ⟨d, rfl⟩ := List.getLast?_eq_some_iff.1 hslash
    exact Or.inr (Or.inl ⟨d, rfl, by simp [join, habsolute]⟩)
  · exact Or.inr (Or.inr ⟨hnil, hslash, by simp [join, habsolute, hnil, hslash]⟩)

lemma isAbsolute_append {d t : Name} (hd : d ≠ []) : isAbsolute (d ++ t) = isAbsolute d := by
  cases d with
  | nil => exact absurd rfl hd
  | cons c d => rfl

lemma isAbsolute_slash (d t : Name) : isAbsolute (d ++ slash :: t) = isAbsolute (d ++ [slash]) := by
  cases d <;> rfl

lemma segments_slash (d t : Name) : segments (d ++ slash :: t) = segments d ++ segments t :=
  Text.splitOn_append slash d t

lemma components_eq {p : Path} {first : Name} {rest : List Name} (hp : segments p = first :: rest) :
    components p = (if isAbsolute p then [.root] else if first = [dot] then [.here]
      else (component? first).toList) ++ rest.filterMap component? := by
  rw [components, hp]
  simp only
  split
  · rfl
  · split
    · rfl
    · rw [List.filterMap_cons]
      cases component? first <;> rfl

lemma components_slash (d t : Name) :
    components (d ++ slash :: t) = components (d ++ [slash]) ++ (segments t).filterMap component? := by
  have hvoid : (segments []).filterMap component? = [] := rfl
  cases hd : segments d with
  | nil => exact absurd hd (Text.splitOn_ne_nil slash d)
  | cons first rest =>
    have hlong : segments (d ++ slash :: t) = first :: (rest ++ segments t) := by
      rw [segments_slash, hd, List.cons_append]
    have hshort : segments (d ++ [slash]) = first :: (rest ++ segments []) := by
      rw [segments_slash, hd, List.cons_append]
    rw [components_eq hlong, components_eq hshort, isAbsolute_slash, List.filterMap_append,
      List.filterMap_append, hvoid, List.append_nil, List.append_assoc]

lemma components_slash_end {d : Name} (hd : d ≠ []) : components (d ++ [slash]) = components d := by
  have hvoid : (segments []).filterMap component? = [] := rfl
  cases hsegments : segments d with
  | nil => exact absurd hsegments (Text.splitOn_ne_nil slash d)
  | cons first rest =>
    have hshort : segments (d ++ [slash]) = first :: (rest ++ segments []) := by
      rw [segments_slash, hsegments, List.cons_append]
    rw [components_eq hshort, components_eq hsegments, isAbsolute_append hd, List.filterMap_append,
      hvoid, List.append_nil]

lemma components_join_of_ne_nil {dir fragment : Path} (hdir : dir ≠ [])
    (h : isAbsolute fragment = false) :
    components (join dir fragment) = components dir ++ (segments fragment).filterMap component? := by
  rw [join, h, if_neg Bool.false_ne_true]
  split
  · rename_i hslash
    obtain ⟨d, rfl⟩ := List.getLast?_eq_some_iff.1 (hslash.resolve_left hdir)
    rw [List.append_assoc, List.singleton_append, components_slash]
  · rw [components_slash, components_slash_end hdir]

lemma components_join (dir : Path) {n : Name} (hn : IsName n) :
    components (join dir n) = components dir ++ [.normal n] := by
  by_cases hdir : dir = []
  · rw [hdir, join, hn.not_absolute, if_neg Bool.false_ne_true, if_pos (Or.inl rfl), List.nil_append,
      components_eq (segments_name hn), hn.not_absolute, if_neg Bool.false_ne_true, if_neg hn.ne_here,
      component_name hn]
    rfl
  · rw [components_join_of_ne_nil hdir hn.not_absolute, segments_name hn]
    simp [component_name hn]

lemma fileName_join (dir : Path) {n : Name} (hn : IsName n) : fileName? (join dir n) = some n := by
  simp [fileName?, components_join dir hn]

lemma fileName_name {n : Name} (hn : IsName n) : fileName? n = some n := by
  have hjoin : join [] n = n := by simp [join, hn.not_absolute]
  have hname := fileName_join [] hn
  rwa [hjoin] at hname

lemma entryFor_join (set : Extensions) (dir : Path) {n : Name} (hn : IsName n) :
    set.entryFor? (join dir n) = set.entryFor? n := by
  simp only [Extensions.entryFor?, extension?, fileName_join dir hn, fileName_name hn]

def under (root : Path) (names : List Name) : Path := names.foldl join root

@[simp] lemma under_nil (root : Path) : under root [] = root := rfl

lemma under_append (root : Path) (names : List Name) (n : Name) :
    under root (names ++ [n]) = join (under root names) n := by
  simp [under]

lemma forall_step_nil {P : List Name → Name → Prop} :
    ∀ above m, above ++ [m] <+: [] → P above m := by
  intro above m h
  exact absurd (List.prefix_nil.1 h) (by simp)

lemma forall_step_snoc {P : List Name → Name → Prop} {names : List Name} {n : Name} :
    (∀ above m, above ++ [m] <+: names ++ [n] → P above m) ↔
      (∀ above m, above ++ [m] <+: names → P above m) ∧ P names n := by
  constructor
  · intro h
    exact ⟨fun above m hinit => h above m (hinit.trans (List.prefix_append names [n])),
      h names n (List.prefix_refl _)⟩
  · rintro ⟨hnames, hlast⟩ above m hinit
    rcases List.prefix_concat_iff.1 hinit with heq | hinit
    · obtain ⟨rfl, hm⟩ := List.append_inj' heq rfl
      obtain rfl := List.singleton_inj.1 hm
      exact hlast
    · exact hnames above m hinit

lemma forall_prefix_iff {P : List Name → Prop} {names : List Name} :
    (∀ above, above <+: names → P above) ↔
      (∀ above m, above ++ [m] <+: names → P above) ∧ P names := by
  constructor
  · intro h
    exact ⟨fun above m hinit => h above ((List.prefix_append above [m]).trans hinit),
      h names (List.prefix_refl names)⟩
  · rintro ⟨hsteps, hnames⟩ above ⟨rest, rfl⟩
    cases rest with
    | nil => rwa [List.append_nil] at hnames
    | cons m rest => exact hsteps above m ⟨rest, by simp⟩

lemma components_under (root : Path) {names : List Name} (hnames : ∀ n ∈ names, IsName n) :
    components (under root names) = components root ++ names.map .normal := by
  induction names using List.reverseRecOn with
  | nil => simp
  | append_singleton names n ih =>
    rw [under_append, components_join _ (hnames n (by simp)),
      ih fun m hm => hnames m (List.mem_append_left [n] hm)]
    simp

lemma names_eq_of_components {root : Path} {names others : List Name} (hnames : ∀ n ∈ names, IsName n)
    (hothers : ∀ n ∈ others, IsName n)
    (h : components (under root names) = components (under root others)) : names = others := by
  rw [components_under root hnames, components_under root hothers, List.append_cancel_left_eq] at h
  exact (List.map_inj_right fun _ _ he => Component.normal.inj he).1 h

lemma under_inj {root : Path} {names others : List Name} (hnames : ∀ n ∈ names, IsName n)
    (hothers : ∀ n ∈ others, IsName n) (h : under root names = under root others) :
    names = others :=
  names_eq_of_components hnames hothers (congrArg components h)

end Path

end LexRules
