import LexRules.Proofs.Discovery.Visits
import LexRules.Proofs.FileTree.Spelling
import Mathlib.Data.List.Pairwise

/-! What a deep search finds, told by its visits: which files and faults there are, in what order,
and that no entry of a directory is found twice. -/

namespace LexRules

def FileTree.refusal? (tree : FileTree) : Fault → Option (Nat × IoCause)
  | .unreadable path cause =>
    match tree.locate path with
    | .ok place => some (place, cause)
    | .error _ => none
  | _ => none

lemma map_eq_ok {ε α β : Type} {x : Except ε α} {f : α → β} {b : β} :
    x.map f = .ok b ↔ ∃ a, x = .ok a ∧ f a = b := by
  cases x with
  | error e => exact ⟨nofun, nofun⟩
  | ok a => exact ⟨fun h => ⟨a, rfl, Except.ok.inj h⟩, fun ⟨_, ha, h⟩ => Except.ok.inj ha ▸ h ▸ rfl⟩

lemma Finder.tree_of_search {f : Finder} {tree : FileTree} {dir : Path} {s : Search}
    (h : f.search tree dir = .ok s) : s.tree = tree := by
  obtain ⟨patterns, -, rfl⟩ := map_eq_ok.1 h
  rfl

namespace Search

variable {s : Search} {root : Path} {d : Findings} {v w : Visit} {place : Nat}

lemma history_unvisited (h : s.tree.isDirectoryAt place = true) :
    place ∈ List.range s.tree.nodes.size :=
  List.mem_range.2 (FileTree.lt_size_of_isDirectoryAt h)

lemma leveled_singleton (root : Path) : Leveled [root] := by
  refine ⟨List.pairwise_singleton _ root, fun p hp q hq => ?_⟩
  rw [List.mem_singleton.1 hp, List.mem_singleton.1 hq]
  exact Nat.le_succ _

lemma history_forall {P : Path → Prop}
    (hnext : ∀ v : Visit, v.Reports s.tree → P v.dir → ∀ child ∈ s.next v, P child)
    (hroot : P root) : ∀ v ∈ s.history root, v.Reports s.tree ∧ P v.dir :=
  visits_forall hnext _ _ fun _ hdir => List.mem_singleton.1 hdir ▸ hroot

lemma history_places (s : Search) (root : Path) : (s.history root).Pairwise fun v w =>
    ∀ place, v.place? = some place → w.place? ≠ some place :=
  visits_places _ _ List.nodup_range

lemma history_unique (hv : v ∈ s.history root) (hw : w ∈ s.history root)
    (hplace : v.place? = some place) (hagain : w.place? = some place) : v = w := by
  by_contra hne
  have hsymmetric : Std.Symm fun v w : Visit =>
      ∀ place, v.place? = some place → w.place? ≠ some place :=
    ⟨fun v w h place hw hv => h place hv hw⟩
  exact (history_places s root).forall hv hw hne place hplace hagain

lemma history_sorted (hnamed : s.tree.WellNamed) (root : Path) :
    (s.history root).Pairwise fun v w => Path.depth v.dir ≤ Path.depth w.dir :=
  visits_sorted hnamed _ _ (leveled_singleton root)

lemma history_root (hnamed : s.tree.WellNamed) (hlocate : s.tree.locate root = .ok place)
    (hplace : s.tree.isDirectoryAt place = true) :
    ∃ v ∈ s.history root, v.place? = some place ∧ Path.depth v.dir ≤ Path.depth root :=
  visits_pending hnamed _ _ (leveled_singleton root) List.mem_cons_self hlocate
    (history_unvisited hplace)

lemma history_next (hnamed : s.tree.WellNamed) (hv : v ∈ s.history root) {child : Path}
    (hchild : child ∈ s.next v) (hlocate : s.tree.locate child = .ok place) :
    ∃ w ∈ s.history root, w.place? = some place ∧ Path.depth w.dir ≤ Path.depth child := by
  obtain ⟨_, _, _, -, -, -, hdirectory, -⟩ := mem_next.1 hchild
  rw [FileTree.isDirectory_of_locate hlocate] at hdirectory
  exact visits_next hnamed _ _ (leveled_singleton root) hv hchild hlocate
    (history_unvisited hdirectory)

lemma run_eq (s : Search) (visits : List Visit) :
    (visits.foldr (fun visit d => (s.gain visit).merge d) .empty).found =
        visits.flatMap (fun v => (s.gain v).found) ∧
      (visits.foldr (fun visit d => (s.gain visit).merge d) .empty).faults =
        visits.flatMap (fun v => (s.gain v).faults) := by
  induction visits with
  | nil => exact ⟨rfl, rfl⟩
  | cons v visits ih =>
    rw [List.flatMap_cons, List.flatMap_cons, ← ih.1, ← ih.2]
    exact ⟨rfl, rfl⟩

lemma history_located (hroot : s.tree.isDirectory root = true) (hv : v ∈ s.history root) :
    s.tree.isDirectory v.dir = true := by
  refine (history_forall (P := fun dir => s.tree.isDirectory dir = true) ?_ hroot v hv).2
  intro v _ _ child hchild
  obtain ⟨_, _, _, -, -, -, hdirectory, -⟩ := mem_next.1 hchild
  exact hdirectory

lemma history_eq_turn (hroot : s.tree.isDirectory root = true) (hlocate : s.tree.locate root = .ok place) :
    ∃ later, s.history root = s.turn (List.range s.tree.nodes.size) root :: later ∧
      ∀ v ∈ later, v.Reports s.tree ∧ v.place? ≠ some place := by
  have hdirectory := (FileTree.isDirectory_of_locate hlocate).symm.trans hroot
  have hcons : s.history root = _ := visits_cons s (List.range s.tree.nodes.size) root []
  have hplaces := history_places s root
  rw [hcons] at hplaces
  refine ⟨_, hcons, fun v hv => ⟨visits_reports hv, ?_⟩⟩
  exact (List.pairwise_cons.1 hplaces).1 v hv place (place_turn hlocate (history_unvisited hdirectory))

lemma turn_eq_of_names (hroot : s.tree.isDirectory root = true) (hlocate : s.tree.locate root = .ok place) :
    s.turn (List.range s.tree.nodes.size) root = match s.tree.namesAt place with
      | .error cause => .refused root place cause
      | .ok names => .listed root place names := by
  have hdirectory := (FileTree.isDirectory_of_locate hlocate).symm.trans hroot
  rw [turn, hlocate]
  exact if_pos (history_unvisited hdirectory)

/-- A visit whose refusal would be one of the root is a visit to its place. -/
lemma failure_eq_none (hlocate : s.tree.locate root = .ok place) (hv : v.Reports s.tree)
    (hdirectory : s.tree.isDirectory v.dir = true) (hplace : v.place? ≠ some place) :
    failure? root v = none := by
  cases v with
  | listed dir other names => rfl
  | repeated dir => rfl
  | refused dir other cause =>
    refine if_neg fun hsame => hplace (congrArg some ?_)
    exact FileTree.locate_unique (beq_iff_eq.1 hsame).symm hlocate hv.1
  | lost dir cause =>
    obtain ⟨other, hother, -⟩ := FileTree.locate_of_isDirectory hdirectory
    exact absurd (hother.symm.trans hv) nofun

lemma deep_eq (hroot : s.tree.isDirectory root = true) :
    s.deep root = match s.tree.names root with
      | .error cause => .error (.unreadable root cause)
      | .ok _ => .ok ((s.run root).merge
          (.ofNote (.deepFinished root (s.run root).found.length (s.run root).faults.length))) := by
  obtain ⟨place, hlocate, -⟩ := FileTree.locate_of_isDirectory hroot
  obtain ⟨later, hcons, hlater⟩ := history_eq_turn hroot hlocate
  rw [turn_eq_of_names hroot hlocate] at hcons
  have hquiet : later.findSome? (failure? root) = none := by
    refine List.findSome?_eq_none_iff.2 fun v hv => ?_
    refine failure_eq_none hlocate (hlater v hv).1 (history_located hroot ?_) (hlater v hv).2
    rw [hcons]
    exact List.mem_cons_of_mem _ hv
  rw [deep, FileTree.names_of_locate hlocate, hcons]
  cases s.tree.namesAt place with
  | error cause =>
    have hfailure : failure? root (.refused root place cause) = some (.unreadable root cause) :=
      if_pos (beq_self_eq_true (Path.components root))
    rw [List.findSome?_cons_of_isSome (by rw [hfailure]; rfl), hfailure]
  | ok names =>
    rw [List.findSome?_cons_of_isNone rfl, hquiet]

lemma deep_error_iff (hroot : s.tree.isDirectory root = true) :
    (∃ fault, s.deep root = .error fault) ↔ ∃ cause, s.tree.names root = .error cause := by
  rw [deep_eq hroot]
  cases s.tree.names root with
  | error cause => exact ⟨fun _ => ⟨cause, rfl⟩, fun _ => ⟨_, rfl⟩⟩
  | ok names => exact ⟨fun ⟨_, h⟩ => absurd h nofun, fun ⟨_, h⟩ => absurd h nofun⟩

lemma exists_deep (hroot : s.tree.isDirectory root = true) {names : List Name}
    (h : s.tree.names root = .ok names) :
    ∃ e, s.deep root = .ok e := by
  rw [deep_eq hroot, h]
  exact ⟨_, rfl⟩

lemma deep_eq_ok (h : s.deep root = .ok d) :
    d.found = (s.history root).flatMap (fun v => (s.gain v).found) ∧
      d.faults = (s.history root).flatMap (fun v => (s.gain v).faults) := by
  have hrun := run_eq s (s.history root)
  rw [deep] at h
  split at h
  · exact absurd h nofun
  · obtain rfl := Except.ok.inj h
    exact ⟨(List.append_nil _).trans hrun.1, (List.append_nil _).trans hrun.2⟩

lemma deep_of_search {f : Finder} (hroot : s.tree.isDirectory root = true)
    (h : f.search s.tree root = .ok s) : f.deep s.tree root = s.deep root := by
  rw [Finder.deep, hroot, h]
  rfl

lemma mem_filesOf {dir : Path} {names : List Name} {o : Found} :
    o ∈ s.filesOf (Path.entries dir names) ↔ ∃ n ∈ names, o.path = Path.join dir n ∧
      s.tree.isDirectory o.path = false ∧ s.excludes o.path false = false ∧
      s.finder.extensions.entryFor? o.path = some o.extension := by
  simp only [filesOf, Path.entries, List.mem_filterMap, List.mem_map]
  constructor
  · rintro ⟨_, ⟨n, hn, rfl⟩, hsome⟩
    split at hsome
    · exact absurd hsome (Option.some_ne_none o).symm
    · rename_i hkept
      obtain ⟨extension, hextension, rfl⟩ := Option.map_eq_some_iff.1 hsome
      simp only [Bool.or_eq_true, not_or, Bool.not_eq_true] at hkept
      exact ⟨n, hn, rfl, hkept.1, hkept.2, hextension⟩
  · obtain ⟨path, extension⟩ := o
    rintro ⟨n, hn, rfl, hfile, hkept, hextension⟩
    refine ⟨_, ⟨n, hn, rfl⟩, ?_⟩
    rw [hfile, hkept, if_neg (by simp), Finder.accept?, hextension]
    rfl

lemma mem_found (h : s.deep root = .ok d) {o : Found} : o ∈ d.found ↔ ∃ dir place names,
    .listed dir place names ∈ s.history root ∧ o ∈ s.filesOf (Path.entries dir names) := by
  rw [(deep_eq_ok h).1, List.mem_flatMap]
  constructor
  · rintro ⟨v, hv, ho⟩
    cases v with
    | listed dir place names => exact ⟨dir, place, names, hv, ho⟩
    | refused dir place cause => exact absurd ho List.not_mem_nil
    | repeated dir => exact absurd ho List.not_mem_nil
    | lost dir cause => exact absurd ho List.not_mem_nil
  · rintro ⟨dir, place, names, hv, ho⟩
    exact ⟨_, hv, ho⟩

lemma history_reports (hv : v ∈ s.history root) : v.Reports s.tree := visits_reports hv

lemma refusal_of_refused {dir : Path} {cause : IoCause}
    (hv : .refused dir place cause ∈ s.history root) :
    s.tree.refusal? (.unreadable dir cause) = some (place, cause) := by
  rw [FileTree.refusal?, (history_reports hv).1]

lemma faults_of_gain (hroot : s.tree.isDirectory root = true) (hv : v ∈ s.history root) :
    (∃ dir place cause, v = .refused dir place cause ∧ (s.gain v).faults = [.unreadable dir cause]) ∨
      (s.gain v).faults = [] := by
  cases v with
  | listed dir place names => exact Or.inr rfl
  | refused dir place cause => exact Or.inl ⟨dir, place, cause, rfl, rfl⟩
  | repeated dir => exact Or.inr rfl
  | lost dir cause =>
    obtain ⟨place, hlocate, -⟩ := FileTree.locate_of_isDirectory (history_located hroot hv)
    exact absurd (hlocate.symm.trans (history_reports hv)) nofun

lemma mem_faults (hroot : s.tree.isDirectory root = true) (h : s.deep root = .ok d) {fault : Fault} :
    fault ∈ d.faults ↔ ∃ dir place cause,
      .refused dir place cause ∈ s.history root ∧ fault = .unreadable dir cause := by
  rw [(deep_eq_ok h).2, List.mem_flatMap]
  constructor
  · rintro ⟨v, hv, hfault⟩
    rcases faults_of_gain hroot hv with ⟨dir, place, cause, rfl, heq⟩ | heq
    · exact ⟨dir, place, cause, hv, List.mem_singleton.1 (heq ▸ hfault)⟩
    · exact absurd (heq ▸ hfault) List.not_mem_nil
  · rintro ⟨dir, place, cause, hv, rfl⟩
    exact ⟨_, hv, List.mem_singleton_self _⟩

lemma faults_nodup (hroot : s.tree.isDirectory root = true) (h : s.deep root = .ok d) :
    (d.faults.map s.tree.refusal?).Nodup := by
  rw [(deep_eq_ok h).2, List.map_flatMap]
  refine List.pairwise_flatMap.2 ⟨fun v hv => ?_, ?_⟩
  · rcases faults_of_gain hroot hv with ⟨_, _, _, -, heq⟩ | heq <;> rw [heq] <;> simp
  · refine (history_places s root).imp_of_mem fun {v w} hv hw hplaces => ?_
    intro x hx y hy heq
    rcases faults_of_gain hroot hv with ⟨dir, place, cause, rfl, hfaults⟩ | hfaults
    · rcases faults_of_gain hroot hw with ⟨other, there, why, rfl, hothers⟩ | hothers
      · rw [hfaults, List.map_singleton, List.mem_singleton, refusal_of_refused hv] at hx
        rw [hothers, List.map_singleton, List.mem_singleton, refusal_of_refused hw] at hy
        rw [hx, hy, Option.some.injEq, Prod.mk.injEq] at heq
        exact hplaces place rfl (heq.1 ▸ rfl)
      · rw [hothers] at hy
        exact absurd hy List.not_mem_nil
    · rw [hfaults] at hx
      exact absurd hx List.not_mem_nil

lemma filesOf_sublist (s : Search) (paths : List Path) :
    ((s.filesOf paths).map Found.path).Sublist paths := by
  induction paths with
  | nil => exact List.Sublist.refl _
  | cons path paths ih =>
    rw [filesOf, List.filterMap_cons]
    split
    · exact ih.cons path
    · rename_i o ho
      split at ho
      · exact absurd ho nofun
      · obtain ⟨extension, -, rfl⟩ := Option.map_eq_some_iff.1 ho
        exact ih.cons_cons path

section WellNamed

variable (hnamed : s.tree.WellNamed)

include hnamed

lemma slot_of_listed {dir : Path} {names : List Name} (hv : .listed dir place names ∈ s.history root)
    {n : Name} (hn : n ∈ names) : s.tree.slot? (Path.join dir n) = some (place, n) := by
  have hreports := history_reports hv
  exact FileTree.slot_join ((hnamed.listing hreports.2).2 n hn) hreports.1
    (FileTree.isDirectoryAt_of_names hreports.2)

lemma slots_of_gain (hv : v ∈ s.history root) :
    ((s.gain v).found.map fun o => s.tree.slot? o.path).Nodup ∧
      ∀ o ∈ (s.gain v).found, ∃ place n,
        v.place? = some place ∧ s.tree.slot? o.path = some (place, n) := by
  cases v with
  | listed dir place names =>
    have hslot : ∀ n ∈ names, s.tree.slot? (Path.join dir n) = some (place, n) :=
      fun n hn => slot_of_listed hnamed hv hn
    constructor
    · have hslots : (Path.entries dir names).map s.tree.slot? = names.map fun n => some (place, n) := by
        rw [Path.entries, List.map_map]
        exact List.map_congr_left hslot
      have hnodup : ((Path.entries dir names).map s.tree.slot?).Nodup := by
        rw [hslots]
        exact List.pairwise_map.2 ((hnamed.listing (history_reports hv).2).1.imp
          fun hne heq => hne (Prod.mk.inj (Option.some.inj heq)).2)
      have hmap : ((s.gain (.listed dir place names)).found.map fun o => s.tree.slot? o.path) =
          ((s.filesOf (Path.entries dir names)).map Found.path).map s.tree.slot? := by
        rw [List.map_map]
        rfl
      rw [hmap]
      exact hnodup.sublist ((s.filesOf_sublist _).map _)
    · intro o ho
      obtain ⟨n, hn, hpath, -⟩ := mem_filesOf.1 ho
      exact ⟨place, n, rfl, hpath ▸ hslot n hn⟩
  | refused dir place cause => exact ⟨List.nodup_nil, fun _ ho => absurd ho List.not_mem_nil⟩
  | repeated dir => exact ⟨List.nodup_nil, fun _ ho => absurd ho List.not_mem_nil⟩
  | lost dir cause => exact ⟨List.nodup_nil, fun _ ho => absurd ho List.not_mem_nil⟩

lemma found_slots_nodup (h : s.deep root = .ok d) :
    (d.found.map fun o => s.tree.slot? o.path).Nodup := by
  rw [(deep_eq_ok h).1, List.map_flatMap]
  refine List.pairwise_flatMap.2 ⟨fun v hv => (slots_of_gain hnamed hv).1, ?_⟩
  refine (history_places s root).imp_of_mem fun {v w} hv hw hplaces => ?_
  intro x hx y hy heq
  obtain ⟨o, ho, rfl⟩ := List.mem_map.1 hx
  obtain ⟨p, hp, rfl⟩ := List.mem_map.1 hy
  obtain ⟨place, n, hplace, hslot⟩ := (slots_of_gain hnamed hv).2 o ho
  obtain ⟨other, m, hother, hagain⟩ := (slots_of_gain hnamed hw).2 p hp
  simp only [hslot, hagain, Option.some.injEq, Prod.mk.injEq] at heq
  exact hplaces place hplace (heq.1 ▸ hother)

lemma depth_of_gain (hv : v.Reports s.tree) :
    ∀ o ∈ (s.gain v).found, Path.depth o.path = Path.depth v.dir + 1 := by
  intro o ho
  cases v with
  | listed dir place names =>
    obtain ⟨n, hn, hpath, -⟩ := mem_filesOf.1 ho
    rw [hpath, Path.depth_join _ ((hnamed.listing hv.2).2 n hn)]
    rfl
  | refused dir place cause => exact absurd ho List.not_mem_nil
  | repeated dir => exact absurd ho List.not_mem_nil
  | lost dir cause => exact absurd ho List.not_mem_nil

lemma found_sorted (h : s.deep root = .ok d) :
    d.found.Pairwise fun o p => Path.depth o.path ≤ Path.depth p.path := by
  rw [(deep_eq_ok h).1]
  refine List.pairwise_flatMap.2 ⟨fun v hv => ?_, ?_⟩
  · have hdepth := depth_of_gain hnamed (history_reports hv)
    refine List.pairwise_of_forall_mem_list fun o ho p hp => ?_
    exact Nat.le_of_eq ((hdepth o ho).trans (hdepth p hp).symm)
  · refine (history_sorted hnamed root).imp_of_mem fun {v w} hv hw hle => ?_
    intro o ho p hp
    rw [depth_of_gain hnamed (history_reports hv) o ho,
      depth_of_gain hnamed (history_reports hw) p hp]
    exact Nat.succ_le_succ hle

end WellNamed

end Search

end LexRules
