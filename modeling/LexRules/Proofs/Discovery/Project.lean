import LexRules.Discovery.Project
import LexRules.Proofs.Path.Order

/-! What several search paths give together: in order, and one found file for each path, however often
and in what spellings it was found. -/

namespace LexRules

lemma Extensions.entryFor_congr (set : Extensions) {p q : Path}
    (h : Path.components p = Path.components q) : set.entryFor? p = set.entryFor? q := by
  simp only [entryFor?, Path.extension?, Path.fileName?, h]

lemma filter_eq_singleton {α β : Type} {key : α → β} {keep : α → Bool} {l : List α} {a : α}
    (h : l.Pairwise fun x y => key x ≠ key y) (ha : a ∈ l)
    (hkeep : ∀ x, keep x = true ↔ key x = key a) : l.filter keep = [a] := by
  induction l with
  | nil => exact absurd ha List.not_mem_nil
  | cons b l ih =>
    obtain ⟨hb, hl⟩ := List.pairwise_cons.1 h
    rcases List.mem_cons.1 ha with rfl | ha
    · have hnone : l.filter keep = [] := by
        apply List.filter_eq_nil_iff.2
        exact fun x hx hx' => hb x hx ((hkeep x).1 hx').symm
      rw [List.filter_cons_of_pos ((hkeep a).2 rfl), hnone]
    · rw [List.filter_cons_of_neg fun hb' => hb a ha ((hkeep b).1 hb')]
      exact ih hl ha

lemma eq_of_increasing {α β : Type} [LinearOrder β] {key : α → β} {l m : List α}
    (hl : l.Pairwise fun a b => key a < key b) (hm : m.Pairwise fun a b => key a < key b)
    (h : ∀ a, a ∈ l ↔ a ∈ m) : l = m := by
  have hne : ∀ {a b : α}, key a < key b → a ≠ b := fun hlt heq => hlt.ne (congrArg key heq)
  have hperm : l.Perm m := (List.perm_ext_iff_of_nodup (hl.imp hne) (hm.imp hne)).2 h
  exact hperm.eq_of_pairwise (fun a b _ _ hab hba => absurd (hab.trans hba) (lt_irrefl _)) hl hm

lemma find_perm {α : Type} (keep : α → Bool) {l m : List α} (hperm : l.Perm m)
    (honly : ∀ a ∈ l, ∀ b ∈ l, keep a = true → keep b = true → a = b) : l.find? keep = m.find? keep := by
  cases hl : l.find? keep with
  | none =>
    refine (List.find?_eq_none.2 fun b hb => ?_).symm
    exact List.find?_eq_none.1 hl b (hperm.mem_iff.2 hb)
  | some a =>
    have ha := List.mem_of_find?_eq_some hl
    cases hm : m.find? keep with
    | none => exact absurd (List.find?_some hl) (List.find?_eq_none.1 hm a (hperm.mem_iff.1 ha))
    | some b =>
      have hb := hperm.mem_iff.2 (List.mem_of_find?_eq_some hm)
      rw [honly a ha b hb (List.find?_some hl) (List.find?_some hm)]

namespace Found

def key (o : Found) : List Component := Path.components o.path

def Matches (set : Extensions) (o : Found) : Prop := set.entryFor? o.path = some o.extension

variable {set : Extensions} {o p last : Found} {found : List Found}

lemma same_of_key (ho : Matches set o) (hp : Matches set p) (h : o.key = p.key) :
    o.same p = true := by
  have hextension : o.extension = p.extension :=
    Option.some.inj (ho.symm.trans ((set.entryFor_congr h).trans hp))
  rw [same, Path.same_iff.2 h, hextension, beq_self_eq_true, Bool.and_self]

lemma eq_of_path (ho : Matches set o) (hp : Matches set p) (h : o.path = p.path) : o = p := by
  have hextension : o.extension = p.extension := by
    rw [Matches, h] at ho
    exact Option.some.inj (ho.symm.trans hp)
  cases o
  cases p
  rw [Found.mk.injEq]
  exact ⟨h, hextension⟩

lemma key_of_same (h : o.same p = true) : o.key = p.key := by
  rw [same, Bool.and_eq_true] at h
  exact Path.same_iff.1 h.1

lemma mem_of_mem_dropRepeatsFrom (h : o ∈ dropRepeatsFrom last found) : o ∈ last :: found := by
  induction found generalizing last with
  | nil => exact h
  | cons next rest ih =>
    rw [dropRepeatsFrom] at h
    split at h
    · rcases List.mem_cons.1 (ih h) with rfl | hrest
      · exact List.mem_cons_self
      · exact List.mem_cons_of_mem _ (List.mem_cons_of_mem _ hrest)
    · rcases List.mem_cons.1 h with rfl | hrest
      · exact List.mem_cons_self
      · exact List.mem_cons_of_mem _ (ih hrest)

lemma exists_key_dropRepeatsFrom (h : o ∈ last :: found) :
    ∃ p ∈ dropRepeatsFrom last found, p.key = o.key := by
  induction found generalizing last o with
  | nil => exact ⟨o, h, rfl⟩
  | cons next rest ih =>
    rw [dropRepeatsFrom]
    split
    · rename_i hsame
      rcases List.mem_cons.1 h with rfl | hnext
      · exact ih List.mem_cons_self
      · rcases List.mem_cons.1 hnext with rfl | hrest
        · obtain ⟨p, hp, hkey⟩ := ih (List.mem_cons_self (a := last))
          exact ⟨p, hp, hkey.trans (key_of_same hsame)⟩
        · exact ih (List.mem_cons_of_mem last hrest)
    · rcases List.mem_cons.1 h with rfl | hnext
      · exact ⟨o, List.mem_cons_self, rfl⟩
      · obtain ⟨p, hp, hkey⟩ := ih hnext
        exact ⟨p, List.mem_cons_of_mem _ hp, hkey⟩

lemma pairwise_dropRepeatsFrom (hmatches : ∀ o ∈ last :: found, Matches set o)
    (hsorted : (last :: found).Pairwise fun o p => o.key ≤ p.key) :
    (dropRepeatsFrom last found).Pairwise fun o p => o.key < p.key := by
  induction found generalizing last with
  | nil => exact List.pairwise_singleton _ last
  | cons next rest ih =>
    obtain ⟨hlast, hrest⟩ := List.pairwise_cons.1 hsorted
    have hnext : ∀ o ∈ next :: rest, Matches set o :=
      fun o ho => hmatches o (List.mem_cons_of_mem last ho)
    rw [dropRepeatsFrom]
    split
    · apply ih
      · intro o ho
        rcases List.mem_cons.1 ho with rfl | ho
        · exact hmatches o List.mem_cons_self
        · exact hnext o (List.mem_cons_of_mem next ho)
      · exact List.pairwise_cons.2 ⟨fun o ho => hlast o (List.mem_cons_of_mem next ho), hrest.tail⟩
    · rename_i hsame
      have hlt : last.key < next.key := by
        apply lt_of_le_of_ne (hlast next List.mem_cons_self)
        exact fun hkey =>
          hsame (same_of_key (hmatches last List.mem_cons_self) (hnext next List.mem_cons_self) hkey)
      refine List.pairwise_cons.2 ⟨fun o ho => ?_, ih hnext hrest⟩
      rcases List.mem_cons.1 (mem_of_mem_dropRepeatsFrom ho) with rfl | ho
      · exact hlt
      · exact hlt.trans_le ((List.pairwise_cons.1 hrest).1 o ho)

lemma sort_total (f g : Found) :
    (!Path.precedes g.path f.path || !Path.precedes f.path g.path) = true := by
  rw [Bool.or_eq_true, Path.not_precedes_iff, Path.not_precedes_iff]
  exact le_total _ _

lemma sort_trans (f g h : Found) (hfg : (!Path.precedes g.path f.path) = true)
    (hgh : (!Path.precedes h.path g.path) = true) : (!Path.precedes h.path f.path) = true := by
  rw [Path.not_precedes_iff] at hfg hgh ⊢
  exact hfg.trans hgh

lemma sorted_mergeSort (found : List Found) :
    (found.mergeSort fun f g => !Path.precedes g.path f.path).Pairwise fun o p => o.key ≤ p.key := by
  exact (List.pairwise_mergeSort sort_trans sort_total found).imp Path.not_precedes_iff.1

structure Arranged (found arranged : List Found) : Prop where
  increasing : arranged.Pairwise fun o p => o.key < p.key
  found_of_mem : ∀ o ∈ arranged, o ∈ found
  keeps : ∀ o ∈ found, ∃ p ∈ arranged, p.key = o.key

lemma arrange_spec (hmatches : ∀ o ∈ found, Matches set o) : Arranged found (arrange found) := by
  have hmem : ∀ o, o ∈ found.mergeSort (fun f g => !Path.precedes g.path f.path) ↔ o ∈ found :=
    fun o => List.mem_mergeSort
  have hsorted := sorted_mergeSort found
  rw [arrange]
  cases hlist : found.mergeSort fun f g => !Path.precedes g.path f.path with
  | nil =>
    rw [hlist] at hmem
    exact ⟨.nil, fun o ho => absurd ho List.not_mem_nil, fun o ho => absurd ((hmem o).2 ho)
      List.not_mem_nil⟩
  | cons first rest =>
    rw [hlist] at hmem hsorted
    constructor
    case increasing =>
      exact pairwise_dropRepeatsFrom (fun o ho => hmatches o ((hmem o).1 ho)) hsorted
    case found_of_mem => exact fun o ho => (hmem o).1 (mem_of_mem_dropRepeatsFrom ho)
    case keeps => exact fun o ho => exists_key_dropRepeatsFrom ((hmem o).2 ho)

lemma mem_dropRepeatsFrom_iff (hmatches : ∀ o ∈ last :: found, Matches set o)
    (hsorted : (last :: found).Pairwise fun o p => o.key ≤ p.key) :
    p ∈ dropRepeatsFrom last found ↔ (last :: found).find? (fun o => o.key = p.key) = some p := by
  induction found generalizing last with
  | nil =>
    rw [dropRepeatsFrom, List.mem_singleton, List.find?_cons]
    by_cases hkey : last.key = p.key
    · simp [hkey, eq_comm]
    · simp [hkey, show p ≠ last from fun h => hkey (h ▸ rfl)]
  | cons next rest ih =>
    obtain ⟨hlast, hrest⟩ := List.pairwise_cons.1 hsorted
    obtain ⟨hfirst, hnext⟩ := List.forall_mem_cons.1 hmatches
    rw [dropRepeatsFrom]
    split
    · rename_i hsame
      have hkey := key_of_same hsame
      have hmatches : ∀ o ∈ last :: rest, Matches set o :=
        List.forall_mem_cons.2 ⟨hfirst, (List.forall_mem_cons.1 hnext).2⟩
      have hsorted : (last :: rest).Pairwise fun o p => o.key ≤ p.key :=
        List.pairwise_cons.2 ⟨fun o ho => hlast o (List.mem_cons_of_mem next ho), hrest.tail⟩
      rw [ih hmatches hsorted]
      simp only [List.find?_cons, ← hkey]
      cases decide (last.key = p.key) <;> rfl
    · rename_i hsame
      have hlt : last.key < next.key := lt_of_le_of_ne (hlast next List.mem_cons_self) fun hkey =>
        hsame (same_of_key hfirst (List.forall_mem_cons.1 hnext).1 hkey)
      rw [List.mem_cons, ih hnext hrest]
      by_cases hkey : last.key = p.key
      · have hfind : (last :: next :: rest).find? (fun o => o.key = p.key) = some last :=
          List.find?_cons_of_pos (decide_eq_true hkey)
        rw [hfind]
        refine ⟨fun h => congrArg some (h.resolve_right fun hfind => ?_).symm,
          fun h => Or.inl (Option.some.inj h).symm⟩
        -- nothing behind has the key of what comes first
        have hle : next.key ≤ p.key := by
          rcases List.mem_cons.1 (List.mem_of_find?_eq_some hfind) with rfl | hp
          · exact le_refl _
          · exact (List.pairwise_cons.1 hrest).1 p hp
        exact absurd hkey (hlt.trans_le hle).ne
      · have hne : p ≠ last := fun h => hkey (h ▸ rfl)
        have hfind : (last :: next :: rest).find? (fun o => o.key = p.key) =
            (next :: rest).find? fun o => o.key = p.key :=
          List.find?_cons_of_neg fun h => hkey (of_decide_eq_true h)
        rw [hfind]
        exact or_iff_right hne

/-- Sorting keeps found files with one key in the order in which they came. -/
lemma filter_mergeSort (found : List Found) (k : List Component) :
    (found.mergeSort fun f g => !Path.precedes g.path f.path).filter (fun o => o.key = k) =
      found.filter fun o => o.key = k := by
  have hties : (found.filter fun o => o.key = k).Pairwise fun f g =>
      (!Path.precedes g.path f.path) = true := by
    refine List.pairwise_of_forall_mem_list fun f hf g hg => Path.not_precedes_iff.2 ?_
    have hkf := of_decide_eq_true (List.mem_filter.1 hf).2
    have hkg := of_decide_eq_true (List.mem_filter.1 hg).2
    exact le_of_eq (hkf.trans hkg.symm)
  have hsub := (List.sublist_mergeSort sort_trans sort_total hties List.filter_sublist).filter
    (fun o => o.key = k)
  rw [List.filter_filter] at hsub
  simp only [Bool.and_self] at hsub
  exact (hsub.eq_of_length ((List.mergeSort_perm found _).filter _).length_eq.symm).symm

lemma mem_arrange_iff (hmatches : ∀ o ∈ found, Matches set o) :
    p ∈ arrange found ↔ found.find? (fun o => o.key = p.key) = some p := by
  have hmem : ∀ o ∈ found.mergeSort (fun f g => !Path.precedes g.path f.path), Matches set o :=
    fun o ho => hmatches o (List.mem_mergeSort.1 ho)
  have hsorted := sorted_mergeSort found
  rw [← List.head?_filter, ← filter_mergeSort, List.head?_filter, arrange]
  cases hlist : found.mergeSort fun f g => !Path.precedes g.path f.path with
  | nil => simp [dropRepeats]
  | cons first rest =>
    rw [hlist] at hmem hsorted
    exact mem_dropRepeatsFrom_iff hmem hsorted

lemma arrange_congr {others : List Found} (hmatches : ∀ o ∈ found, Matches set o)
    (hothers : ∀ o ∈ others, Matches set o)
    (h : ∀ k, found.find? (fun o => o.key = k) = others.find? fun o => o.key = k) :
    arrange found = arrange others := by
  apply eq_of_increasing (arrange_spec hmatches).increasing (arrange_spec hothers).increasing
  intro p
  rw [mem_arrange_iff hmatches, mem_arrange_iff hothers, h]

end Found

namespace Finder

variable (f : Finder) (tree : FileTree) (deep : Bool) (paths : List Path)

lemma foldl_merge (all : List Findings) (d : Findings) :
    (all.foldl Findings.merge d).found = d.found ++ all.flatMap Findings.found ∧
      (all.foldl Findings.merge d).faults = d.faults ++ all.flatMap Findings.faults := by
  induction all generalizing d with
  | nil => simp
  | cons e all ih =>
    rw [List.foldl_cons, (ih _).1, (ih _).2]
    simp [Findings.merge]

lemma found_findAll : (f.findAll tree deep paths).found =
    Found.arrange (paths.flatMap fun path => (f.findOn tree deep path).found) := by
  simp only [findAll, foldl_merge, Findings.empty, List.nil_append, List.flatMap_map]

lemma faults_findAll : (f.findAll tree deep paths).faults =
    paths.flatMap fun path => (f.findOn tree deep path).faults := by
  simp only [findAll, foldl_merge, Findings.empty, List.nil_append, List.flatMap_map]

lemma isComplete_findAll : (f.findAll tree deep paths).isComplete = true ↔
    ∀ path ∈ paths, (f.findOn tree deep path).faults = [] := by
  rw [Findings.isComplete, List.isEmpty_iff, faults_findAll, List.flatMap_eq_nil_iff]

end Finder

end LexRules
