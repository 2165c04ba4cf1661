import LexRules.Proofs.Discovery.Links
import LexRules.Proofs.Discovery.Merging
import LexRules.Proofs.FileTree.Relisting
import Mathlib.Data.List.Nodup
import Mathlib.Data.List.Perm.Basic

/-! Deep searches of a tree whose directories list in two orders. The order decides between paths that
lead to one directory in equally many steps; where it has nothing to decide, both find the same. -/

namespace LexRules

namespace FileTree

variable {tree again : FileTree} {place : Nat} {n : Name}

lemma lists_relisted (h : tree.Relisted again) : again.Lists place n ↔ tree.Lists place n := by
  rw [Lists, Lists]
  rcases namesAt_relisted h place with ⟨names, others, hnames, hothers, hperm⟩ | ⟨cause, hnames, hothers⟩
  · simp [hnames, hothers, hperm.mem_iff]
  · simp [hnames, hothers]

lemma refuses_relisted (h : tree.Relisted again) {cause : IoCause} :
    again.namesAt place = .error cause ↔ tree.namesAt place = .error cause := by
  rcases namesAt_relisted h place with ⟨names, others, hnames, hothers, -⟩ | ⟨other, hnames, hothers⟩
  · simp [hnames, hothers]
  · simp [hnames, hothers]

section

variable (h : tree.Relisted again) (hnamed : tree.WellNamed)

include h hnamed

lemma listsFile_relisted : again.ListsFile place n ↔ tree.ListsFile place n := by
  simp only [ListsFile, lists_relisted h, resolve_relisted h hnamed, isDirectoryAt_relisted h]

lemma Edge.relisted {left : Name → Bool → Bool} {next : Nat} (hedge : tree.Edge left place n next) :
    again.Edge left place n next where
  lists := (lists_relisted h).2 hedge.lists
  resolves := (resolve_relisted h hnamed place n).trans hedge.resolves
  isDirectory := (isDirectoryAt_relisted h next).trans hedge.isDirectory
  kept := hedge.kept

lemma Route.relisted {left : Name → Bool → Bool} {start : Nat} {names : List Name}
    (hroute : tree.Route left start names place) : again.Route left start names place := by
  induction hroute with
  | nil => exact .nil
  | snoc _ hedge ih => exact ih.snoc (hedge.relisted h hnamed)

lemma route_relisted {left : Name → Bool → Bool} {start : Nat} {names : List Name} :
    again.Route left start names place ↔ tree.Route left start names place :=
  ⟨Route.relisted h.symm (wellNamed_relisted h hnamed), Route.relisted h hnamed⟩

end

end FileTree

namespace Search

def ComesTo (s : Search) (root dir : Path) : Prop := ∃ v ∈ s.history root, v.dir = dir

def Expands (s : Search) (root dir : Path) (place : Nat) : Prop :=
  ∃ v ∈ s.history root, v.dir = dir ∧ v.place? = some place

/-- The directories that a search visits have no other path to them that is found and as short. -/
def Untied (s : Search) (root : Path) : Prop :=
  ∀ dir place other, s.Expands root dir place → s.ComesTo root other →
    s.tree.locate other = .ok place → Path.depth other = Path.depth dir → other = dir

structure Nearest (s : Search) (root dir : Path) (place : Nat) : Prop where
  comesTo : s.ComesTo root dir
  locates : s.tree.locate dir = .ok place
  only : ∀ other, s.ComesTo root other → s.tree.locate other = .ok place →
    Path.depth other ≤ Path.depth dir → other = dir

variable {s : Search} {root dir other : Path} {place : Nat}

lemma Expands.locates (h : s.Expands root dir place) : s.tree.locate dir = .ok place := by
  obtain ⟨v, hv, rfl, hplace⟩ := h
  exact (history_reports hv).locate hplace

lemma Expands.comesTo (h : s.Expands root dir place) : s.ComesTo root dir := by
  obtain ⟨v, hv, hdir, -⟩ := h
  exact ⟨v, hv, hdir⟩

lemma Expands.unique (h : s.Expands root dir place) (hother : s.Expands root other place) :
    other = dir := by
  obtain ⟨v, hv, rfl, hplace⟩ := h
  obtain ⟨w, hw, rfl, hagain⟩ := hother
  rw [history_unique hv hw hplace hagain]

lemma comesTo_iff : s.ComesTo root dir ↔ dir = root ∨ ∃ above place n, s.Expands root above place ∧
    s.tree.Lists place n ∧ dir = Path.join above n ∧ s.tree.isDirectory dir = true ∧
    s.excludes dir true = false := by
  constructor
  · rintro ⟨v, hv, rfl⟩
    rcases visits_origin _ _ hv with hroot | ⟨w, hw, hnext⟩
    · exact Or.inl (List.mem_singleton.1 hroot)
    · obtain ⟨place, names, n, heq, hn, hdir, hdirectory, hkept⟩ := mem_next.1 hnext
      have hreports := history_reports hw
      rw [heq] at hreports
      refine Or.inr ⟨w.dir, place, n, ⟨w, hw, rfl, by rw [heq]; rfl⟩, ⟨names, hreports.2, hn⟩, hdir,
        hdirectory, hkept⟩
  · rintro (rfl | ⟨above, place, n, ⟨w, hw, rfl, hplace⟩, ⟨names, hnames, hn⟩, rfl, hdirectory, hkept⟩)
    · exact visits_queued _ _ (List.mem_singleton_self _)
    · refine visits_child _ _ hw (mem_next.2 ⟨place, names, n, ?_, hn, rfl, hdirectory, hkept⟩)
      exact (history_reports hw).eq_listed hplace hnames

section

variable (hnamed : s.tree.WellNamed) (hroot : s.tree.isDirectory root = true)

include hnamed hroot

lemma exists_expands (h : s.ComesTo root dir) (hlocate : s.tree.locate dir = .ok place) :
    ∃ nearest, s.Expands root nearest place ∧ Path.depth nearest ≤ Path.depth dir := by
  obtain ⟨v, hv, rfl⟩ := h
  rcases visits_origin _ _ hv with hqueue | ⟨w, hw, hnext⟩
  · rw [List.mem_singleton.1 hqueue] at hlocate ⊢
    rw [FileTree.isDirectory_of_locate hlocate] at hroot
    obtain ⟨w, hw, hplace, hle⟩ := history_root hnamed hlocate hroot
    exact ⟨w.dir, ⟨w, hw, rfl, hplace⟩, hle⟩
  · obtain ⟨w, hw, hplace, hle⟩ := history_next hnamed hw hnext hlocate
    exact ⟨w.dir, ⟨w, hw, rfl, hplace⟩, hle⟩

lemma Nearest.expands (h : s.Nearest root dir place) : s.Expands root dir place := by
  obtain ⟨nearest, hexpands, hle⟩ := exists_expands hnamed hroot h.comesTo h.locates
  rwa [h.only nearest hexpands.comesTo hexpands.locates hle] at hexpands

lemma Untied.nearest (huntied : s.Untied root) (h : s.Expands root dir place) :
    s.Nearest root dir place := by
  refine ⟨h.comesTo, h.locates, fun other hother hlocate hle => ?_⟩
  obtain ⟨nearest, hexpands, hnearest⟩ := exists_expands hnamed hroot hother hlocate
  obtain rfl := h.unique hexpands
  exact huntied nearest place other h hother hlocate (Nat.le_antisymm hle hnearest)

end

structure Relisted (s t : Search) : Prop where
  tree : s.tree.Relisted t.tree
  finder : s.finder = t.finder
  excludes : s.excludes = t.excludes

lemma Relisted.symm {t : Search} (h : s.Relisted t) : t.Relisted s :=
  ⟨h.tree.symm, h.finder.symm, h.excludes.symm⟩

section

variable {t : Search} (hrelisted : s.Relisted t) (hnamed : s.tree.WellNamed)

include hrelisted hnamed

lemma ComesTo.relisted (h : s.ComesTo root dir)
    (habove : ∀ above place, Path.depth above < Path.depth dir → s.Expands root above place →
      t.Expands root above place) : t.ComesTo root dir := by
  rw [comesTo_iff] at h ⊢
  refine h.imp id ?_
  rintro ⟨above, place, n, hexpands, hlists, rfl, hdirectory, hkept⟩
  have hdepth := Path.depth_join above (hlists.isName hnamed)
  refine ⟨above, place, n, habove above place (by omega) hexpands,
    (FileTree.lists_relisted hrelisted.tree).2 hlists, rfl, ?_, hrelisted.excludes ▸ hkept⟩
  rwa [FileTree.isDirectory_relisted hrelisted.tree hnamed]

variable (hroot : s.tree.isDirectory root = true) (huntied : s.Untied root)

include hroot huntied

lemma agree_below (n : Nat) : ∀ dir, Path.depth dir < n →
    (s.ComesTo root dir ↔ t.ComesTo root dir) ∧
      ∀ place, s.Expands root dir place ↔ t.Expands root dir place := by
  have hnamed' := FileTree.wellNamed_relisted hrelisted.tree hnamed
  have hlocate := FileTree.locate_relisted hrelisted.tree hnamed
  have hroot' : t.tree.isDirectory root = true := by
    rwa [FileTree.isDirectory_relisted hrelisted.tree hnamed]
  -- By depth: what a search comes to hangs on what it visits one step above, and the path that it
  -- visits a directory by hangs on the paths to it that are no longer.
  induction n with
  | zero => exact fun dir h => absurd h (Nat.not_lt_zero _)
  | succ n ih =>
    have hcomes : ∀ dir, Path.depth dir < n + 1 → (s.ComesTo root dir ↔ t.ComesTo root dir) := by
      intro dir hdir
      constructor
      · refine fun h => h.relisted hrelisted hnamed fun above place hlt => ?_
        exact ((ih above (by omega)).2 place).1
      · refine fun h => h.relisted hrelisted.symm hnamed' fun above place hlt => ?_
        exact ((ih above (by omega)).2 place).2
    have hforward : ∀ dir place, Path.depth dir < n + 1 → s.Expands root dir place →
        t.Expands root dir place := by
      intro dir place hdir h
      have hnearest := huntied.nearest hnamed hroot h
      refine Nearest.expands hnamed' hroot' ⟨(hcomes dir hdir).1 hnearest.comesTo, ?_, ?_⟩
      · rw [hlocate, hnearest.locates]
      · intro other hother hat hle
        rw [hlocate] at hat
        exact hnearest.only other ((hcomes other (by omega)).2 hother) hat hle
    refine fun dir hdir => ⟨hcomes dir hdir, fun place => ⟨hforward dir place hdir, fun h => ?_⟩⟩
    -- Ties are ruled out in one tree only, so what the other visits is compared with what this one does.
    have hat := h.locates
    rw [hlocate] at hat
    obtain ⟨nearest, hexpands, hle⟩ :=
      exists_expands hnamed hroot ((hcomes dir hdir).2 h.comesTo) hat
    rwa [h.unique (hforward nearest place (by omega) hexpands)] at hexpands

lemma expands_relisted : s.Expands root dir place ↔ t.Expands root dir place :=
  (agree_below hrelisted hnamed hroot huntied _ dir (Nat.lt_succ_self _)).2 place

end

lemma mem_found_iff_expands {d : Findings} (h : s.deep root = .ok d) {o : Found} :
    o ∈ d.found ↔ ∃ dir place n, s.Expands root dir place ∧ s.tree.Lists place n ∧
      o.path = Path.join dir n ∧ s.tree.isDirectory o.path = false ∧
      s.excludes o.path false = false ∧ s.finder.extensions.entryFor? o.path = some o.extension := by
  rw [mem_found h]
  constructor
  · rintro ⟨dir, place, names, hv, hmem⟩
    obtain ⟨n, hn, haccepted⟩ := mem_filesOf.1 hmem
    exact ⟨dir, place, n, ⟨_, hv, rfl, rfl⟩, ⟨names, (history_reports hv).2, hn⟩, haccepted⟩
  · rintro ⟨dir, place, n, ⟨v, hv, rfl, hplace⟩, ⟨names, hnames, hn⟩, haccepted⟩
    have hlisted := (history_reports hv).eq_listed hplace hnames
    exact ⟨v.dir, place, names, hlisted ▸ hv, mem_filesOf.2 ⟨n, hn, haccepted⟩⟩

lemma mem_faults_iff_expands {d : Findings} (hroot : s.tree.isDirectory root = true)
    (h : s.deep root = .ok d) {fault : Fault} : fault ∈ d.faults ↔ ∃ dir place cause,
      s.Expands root dir place ∧ s.tree.namesAt place = .error cause ∧
        fault = .unreadable dir cause := by
  rw [mem_faults hroot h]
  constructor
  · rintro ⟨dir, place, cause, hv, rfl⟩
    exact ⟨dir, place, cause, ⟨_, hv, rfl, rfl⟩, (history_reports hv).2, rfl⟩
  · rintro ⟨dir, place, cause, ⟨v, hv, rfl, hplace⟩, hcause, rfl⟩
    have hrefused := (history_reports hv).eq_refused hplace hcause
    exact ⟨v.dir, place, cause, hrefused ▸ hv, rfl⟩

/-- Two searches come to the same: they fail alike, or they find the same files and the same
directories that cannot be listed. -/
inductive Alike : Except Fault Findings → Except Fault Findings → Prop
  | failed (fault : Fault) : Alike (.error fault) (.error fault)
  | found {d e : Findings} : d.found.Perm e.found → d.faults.Perm e.faults → Alike (.ok d) (.ok e)

section

variable {t : Search} (hrelisted : s.Relisted t) (hnamed : s.tree.WellNamed)
  (hroot : s.tree.isDirectory root = true) {d e : Findings}

include hrelisted hnamed

include hroot

lemma ends_relisted :
    (∃ fault, s.deep root = .error fault ∧ t.deep root = .error fault) ∨
      ∃ d e, s.deep root = .ok d ∧ t.deep root = .ok e := by
  have hroot' : t.tree.isDirectory root = true := by
    rwa [FileTree.isDirectory_relisted hrelisted.tree hnamed]
  rw [deep_eq hroot, deep_eq hroot']
  rcases FileTree.names_relisted hrelisted.tree hnamed root with
    ⟨names, others, hnames, hothers, -⟩ | ⟨cause, hnames, hothers⟩
  · rw [hnames, hothers]
    exact Or.inr ⟨_, _, rfl, rfl⟩
  · rw [hnames, hothers]
    exact Or.inl ⟨_, rfl, rfl⟩

lemma found_relisted (huntied : s.Untied root) (hd : s.deep root = .ok d) (he : t.deep root = .ok e) :
    d.found.Perm e.found := by
  have hnamed' := FileTree.wellNamed_relisted hrelisted.tree hnamed
  have hnodup : d.found.Nodup := List.Nodup.of_map _ (found_slots_nodup hnamed hd)
  have hnodup' : e.found.Nodup := List.Nodup.of_map _ (found_slots_nodup hnamed' he)
  refine (List.perm_ext_iff_of_nodup hnodup hnodup').2 fun o => ?_
  rw [mem_found_iff_expands hd, mem_found_iff_expands he]
  simp only [expands_relisted hrelisted hnamed hroot huntied, FileTree.lists_relisted hrelisted.tree,
    FileTree.isDirectory_relisted hrelisted.tree hnamed, hrelisted.excludes, hrelisted.finder]

lemma faults_relisted (huntied : s.Untied root) (hd : s.deep root = .ok d) (he : t.deep root = .ok e) :
    d.faults.Perm e.faults := by
  have hroot' : t.tree.isDirectory root = true := by
    rwa [FileTree.isDirectory_relisted hrelisted.tree hnamed]
  have hnodup : d.faults.Nodup := List.Nodup.of_map _ (faults_nodup hroot hd)
  have hnodup' : e.faults.Nodup := List.Nodup.of_map _ (faults_nodup hroot' he)
  refine (List.perm_ext_iff_of_nodup hnodup hnodup').2 fun fault => ?_
  rw [mem_faults_iff_expands hroot hd, mem_faults_iff_expands hroot' he]
  simp only [expands_relisted hrelisted hnamed hroot huntied, FileTree.refuses_relisted hrelisted.tree]

lemma deep_relisted (huntied : s.Untied root) : Alike (s.deep root) (t.deep root) := by
  rcases ends_relisted hrelisted hnamed hroot with ⟨fault, hd, he⟩ | ⟨d, e, hd, he⟩
  · rw [hd, he]
    exact .failed fault
  · rw [hd, he]
    exact .found (found_relisted hrelisted hnamed hroot huntied hd he)
      (faults_relisted hrelisted hnamed hroot huntied hd he)

end

lemma slots_relisted {t : Search} {left : Name → Bool → Bool} {d e : Findings}
    (hrelisted : s.Relisted t) (hnamed : s.tree.WellNamed) (hleft : s.ByName root left)
    (hroot : s.tree.isDirectory root = true) (hd : s.deep root = .ok d) (he : t.deep root = .ok e) :
    (d.found.map fun o => s.tree.slot? o.path).Perm (e.found.map fun o => s.tree.slot? o.path) := by
  have hnamed' := FileTree.wellNamed_relisted hrelisted.tree hnamed
  have hlocate := FileTree.locate_relisted hrelisted.tree hnamed
  have hslot : t.tree.slot? = s.tree.slot? := by
    funext path
    rw [FileTree.slot?, FileTree.slot?, hlocate]
  have hleft' : t.ByName root left := by
    rw [ByName, ← hrelisted.excludes]
    exact hleft
  obtain ⟨start, hstart, hdirectory⟩ := FileTree.locate_of_isDirectory hroot
  have hsurvey := survey_of_deep hnamed hleft hstart hd hdirectory
  have hsurvey' := survey_of_deep hnamed' hleft' ((hlocate root).trans hstart) he
    ((FileTree.isDirectoryAt_relisted hrelisted.tree start).trans hdirectory)
  have hnodup := hsurvey'.slots_nodup
  have hiff := hsurvey'.slots_iff
  rw [hslot] at hnodup hiff
  refine (List.perm_ext_iff_of_nodup hsurvey.slots_nodup hnodup).2 fun slot => ?_
  rw [hsurvey.slots_iff, hiff]
  simp only [FileTree.route_relisted hrelisted.tree hnamed,
    FileTree.listsFile_relisted hrelisted.tree hnamed, hrelisted.finder]

lemma exists_names_of_comesTo (h : s.ComesTo root dir) (hnamed : s.tree.WellNamed) :
    ∃ names, dir = Path.under root names ∧ s.Enters root names ∧ ∀ n ∈ names, Path.IsName n := by
  obtain ⟨v, hv, rfl⟩ := h
  obtain ⟨names, hdir, henters⟩ := enters_of_visit hv
  exact ⟨names, hdir, henters, henters.isName hnamed⟩

lemma untied_of_plainBelow {start : Nat} (hnamed : s.tree.WellNamed)
    (hplain : s.tree.PlainBelow start) (hstart : s.tree.locate root = .ok start) : s.Untied root := by
  intro dir place other h hother hlocate _
  obtain ⟨names, rfl, henters, -⟩ := exists_names_of_comesTo h.comesTo hnamed
  obtain ⟨others, rfl, hothers, -⟩ := exists_names_of_comesTo hother hnamed
  rw [hothers.unique hnamed hplain hstart henters hlocate h.locates]

def arrivals (s : Search) (root : Path) : List (Path × Nat × Except IoCause Nat) :=
  (s.history root).map fun v => (v.dir, Path.depth v.dir, s.tree.locate v.dir)

lemma untied_of_arrivals
    (h : ∀ x ∈ s.arrivals root, ∀ y ∈ s.arrivals root, x.2 = y.2 → x.1 = y.1) : s.Untied root := by
  rintro _ place _ hexpands ⟨w, hw, rfl⟩ hlocate hdepth
  have hat := hexpands.locates
  obtain ⟨v, hv, rfl⟩ := hexpands.comesTo
  refine h _ (List.mem_map_of_mem hw) _ (List.mem_map_of_mem hv) ?_
  rw [hdepth, hlocate, hat]

end Search

namespace Finder

variable {f : Finder} {tree again : FileTree} {dir : Path}

def Untied (f : Finder) (tree : FileTree) (dir : Path) : Prop :=
  tree.isDirectory dir = true → ∀ s, f.search tree dir = .ok s → s.Untied dir

variable (hrelisted : tree.Relisted again) (hnamed : tree.WellNamed)

lemma search_relisted (f : Finder) (hrelisted : tree.Relisted again) (dir : Path) :
    (∃ fault, f.search tree dir = .error fault ∧ f.search again dir = .error fault) ∨
      ∃ s t, f.search tree dir = .ok s ∧ f.search again dir = .ok t ∧ s.tree = tree ∧
        s.finder = f ∧ s.Relisted t := by
  rw [search, search]
  cases Exclusion.ofLines f.exclude with
  | error fault => exact Or.inl ⟨fault, rfl, rfl⟩
  | ok patterns => exact Or.inr ⟨_, _, rfl, rfl, rfl, rfl, hrelisted, rfl, rfl⟩

include hrelisted hnamed

lemma deep_relisted (huntied : f.Untied tree dir) : Search.Alike (f.deep tree dir) (f.deep again dir) := by
  rw [deep, deep, FileTree.isDirectory_relisted hrelisted hnamed]
  cases hroot : tree.isDirectory dir with
  | false => exact .found (.refl _) (.refl _)
  | true =>
    rcases search_relisted f hrelisted dir with ⟨fault, hs, ht⟩ | ⟨s, t, hs, ht, rfl, -, hsearch⟩
    · rw [hs, ht]
      exact .failed fault
    · rw [hs, ht]
      exact Search.deep_relisted hsearch hnamed hroot (huntied hroot s hs)

lemma findOn_relisted (huntied : f.Untied tree dir) :
    (f.findOn tree true dir).found.Perm (f.findOn again true dir).found ∧
      (f.findOn tree true dir).faults.Perm (f.findOn again true dir).faults := by
  have halike := deep_relisted hrelisted hnamed huntied
  rw [findOn, findOn, find, find, if_pos rfl, if_pos rfl]
  generalize f.deep tree dir = r at halike
  generalize f.deep again dir = r' at halike
  cases halike with
  | failed fault => exact ⟨.refl _, .refl _⟩
  | found hfound hfaults => exact ⟨hfound, hfaults⟩

omit hrelisted in
lemma under_of_findOn {o : Found} (ho : o ∈ (f.findOn tree true dir).found) :
    ∃ names, o.path = Path.under dir names ∧ ∀ n ∈ names, Path.IsName n := by
  obtain ⟨names, n, hpath, -, henters, ⟨listing, hlisting, hn⟩, -⟩ := open_of_findOn ho
  refine ⟨names ++ [n], hpath, fun m hm => ?_⟩
  rcases List.mem_append.1 hm with hm | hm
  · exact henters.isName hnamed m hm
  · exact List.mem_singleton.1 hm ▸ hnamed.isName hlisting hn

omit hrelisted in
lemma eq_of_key {o p : Found} (ho : o ∈ (f.findOn tree true dir).found)
    (hp : p ∈ (f.findOn tree true dir).found) (hkey : o.key = p.key) : o = p := by
  obtain ⟨names, hpath, hnames⟩ := under_of_findOn hnamed ho
  obtain ⟨others, hother, hothers⟩ := under_of_findOn hnamed hp
  rw [Found.key, Found.key, hpath, hother] at hkey
  apply Found.eq_of_path (matches_of_findOn ho) (matches_of_findOn hp)
  rw [hpath, hother, Path.names_eq_of_components hnames hothers hkey]

variable {paths : List Path} (huntied : ∀ dir ∈ paths, f.Untied tree dir)

include huntied

lemma find_findOn_relisted (k : List Component) :
    (paths.flatMap fun dir => (f.findOn again true dir).found).find? (fun o => o.key = k) =
      (paths.flatMap fun dir => (f.findOn tree true dir).found).find? fun o => o.key = k := by
  induction paths with
  | nil => rfl
  | cons dir paths ih =>
    obtain ⟨hdir, hpaths⟩ := List.forall_mem_cons.1 huntied
    have hfirst := find_perm (fun o : Found => o.key = k) (findOn_relisted hrelisted hnamed hdir).1
      fun o ho p hp hko hkp =>
        eq_of_key hnamed ho hp ((of_decide_eq_true hko).trans (of_decide_eq_true hkp).symm)
    rw [List.flatMap_cons, List.flatMap_cons, List.find?_append, List.find?_append, ih hpaths, hfirst]

lemma findAll_relisted :
    (f.findAll again true paths).found = (f.findAll tree true paths).found ∧
      (f.findAll again true paths).isComplete = (f.findAll tree true paths).isComplete := by
  constructor
  · rw [found_findAll, found_findAll]
    exact Found.arrange_congr (matches_of_findAll f again true paths)
      (matches_of_findAll f tree true paths) (find_findOn_relisted hrelisted hnamed huntied)
  · rw [Findings.isComplete, Findings.isComplete, faults_findAll, faults_findAll]
    refine List.Perm.isEmpty_eq (List.Perm.flatMap_left paths fun dir hdir => ?_)
    exact (findOn_relisted hrelisted hnamed (huntied dir hdir)).2.symm

end Finder

end LexRules
