import LexRules.Proofs.Discovery.Findings
import Mathlib

/-! Deep searches of trees without links. Every directory then has one path below the root, and a
search gets to those that it can reach through directories which may be both listed and searched. Where
one may be listed only, nothing can be told of its entries: a directory there is found like a file, or
missed without a fault. -/

namespace LexRules

namespace Access

def opens (a : Access) : Bool := a.list && a.search

end Access

namespace FileTree

inductive Below (tree : FileTree) (start : Nat) : Nat → Prop
  | start : Below tree start start
  | entry {place : Nat} {n : Name} {next : Nat} :
      Below tree start place → (n, next) ∈ tree.entriesAt place → Below tree start next

/-- There are no links below a place, and every directory there is one entry of one directory. -/
structure PlainBelow (tree : FileTree) (start : Nat) : Prop where
  no_link : ∀ place, tree.Below start place → tree.isLinkAt place = false
  one_entry : ∀ place other n m next, tree.Below start place → tree.Below start other →
    (n, next) ∈ tree.entriesAt place → (m, next) ∈ tree.entriesAt other →
      tree.isDirectoryAt next = true → place = other ∧ n = m
  no_entry : ∀ place n, tree.Below start place → (n, start) ∉ tree.entriesAt place

/-- Names lead from one place to another, each being an entry of the directory before it, which has to
grant what is asked of it. -/
inductive Leads (tree : FileTree) (grants : Access → Bool) (start : Nat) : List Name → Nat → Prop
  | nil : Leads tree grants start [] start
  | snoc {names : List Name} {place : Nat} {n : Name} {next : Nat} :
      Leads tree grants start names place → grants (tree.accessAt place) = true →
        (n, next) ∈ tree.entriesAt place → Leads tree grants start (names ++ [n]) next

variable {tree : FileTree} {start place next : Nat} {names : List Name} {n : Name}
  {grants others : Access → Bool}

lemma leads_snoc : tree.Leads grants start (names ++ [n]) next ↔ ∃ place,
    tree.Leads grants start names place ∧ grants (tree.accessAt place) = true ∧
      (n, next) ∈ tree.entriesAt place := by
  constructor
  · generalize hall : names ++ [n] = all
    intro h
    cases h with
    | nil => exact absurd hall (by simp)
    | snoc hleads hgrants hentry =>
      obtain ⟨rfl, hlast⟩ := List.append_inj' hall rfl
      obtain rfl := List.singleton_inj.1 hlast
      exact ⟨_, hleads, hgrants, hentry⟩
  · rintro ⟨place, hleads, hgrants, hentry⟩
    exact hleads.snoc hgrants hentry

lemma below_of_leads (h : tree.Leads grants start names place) : tree.Below start place := by
  induction h with
  | nil => exact .start
  | snoc _ _ hentry ih => exact ih.entry hentry

lemma Leads.mono (hgrants : ∀ place, tree.Below start place →
    grants (tree.accessAt place) = true → others (tree.accessAt place) = true)
    (h : tree.Leads grants start names place) : tree.Leads others start names place := by
  induction h with
  | nil => exact .nil
  | snoc hleads hgranted hentry ih => exact ih.snoc (hgrants _ (below_of_leads hleads) hgranted) hentry

lemma entry_of_resolve (hname : Path.IsName n)
    (hplain : ∀ e ∈ tree.entriesAt place, tree.isLinkAt e.2 = false)
    (h : tree.resolve place n = .ok next) : (n, next) ∈ tree.entriesAt place := by
  rcases step_cases tree place n with ⟨r, hr, hlands⟩ | ⟨id, _, hentry, hlink, -, -⟩
  · exact (hlands next ((hr _).symm.trans h)).2.entry_of_isName hname
  · exact absurd (hplain _ hentry) (by rw [hlink]; exact nofun)

lemma PlainBelow.entry_of_resolve (hplain : tree.PlainBelow start) (hbelow : tree.Below start place)
    (hname : Path.IsName n) (h : tree.resolve place n = .ok next) :
    (n, next) ∈ tree.entriesAt place :=
  FileTree.entry_of_resolve hname (fun _ he => hplain.no_link _ (hbelow.entry he)) h

def allEntries (tree : FileTree) : List (Nat × Name × Nat) :=
  (List.range tree.nodes.size).flatMap fun place => (tree.entriesAt place).map (place, ·)

lemma mem_allEntries (h : (n, next) ∈ tree.entriesAt place) : (place, n, next) ∈ tree.allEntries := by
  refine List.mem_flatMap.2 ⟨place, List.mem_range.2 ?_, List.mem_map.2 ⟨_, h, rfl⟩⟩
  by_contra hplace
  rw [entriesAt, Array.getElem?_eq_none (Nat.le_of_not_lt hplace)] at h
  exact absurd h List.not_mem_nil

lemma plainBelow_of_closed {P : Nat → Prop} (hself : P start)
    (hclosed : ∀ x ∈ tree.allEntries, P x.1 → P x.2.2)
    (hlink : ∀ place, place < tree.nodes.size → P place → tree.isLinkAt place = false)
    (hone : ∀ x ∈ tree.allEntries, ∀ y ∈ tree.allEntries, x.2.2 = y.2.2 →
      tree.isDirectoryAt x.2.2 = true → x.1 = y.1 ∧ x.2.1 = y.2.1)
    (hstart : ∀ x ∈ tree.allEntries, P x.1 → x.2.2 ≠ start) : tree.PlainBelow start := by
  have hinside : ∀ place, tree.Below start place → P place := by
    intro place hbelow
    induction hbelow with
    | start => exact hself
    | entry _ hentry ih => exact hclosed _ (mem_allEntries hentry) ih
  constructor
  case no_link =>
    intro place hbelow
    by_cases hplace : place < tree.nodes.size
    · exact hlink place hplace (hinside place hbelow)
    · rw [isLinkAt, Array.getElem?_eq_none (Nat.le_of_not_lt hplace)]
  case one_entry =>
    intro place other n m next _ _ hentry hagain hdirectory
    exact hone _ (mem_allEntries hentry) _ (mem_allEntries hagain) rfl hdirectory
  case no_entry =>
    intro place n hbelow hentry
    exact hstart _ (mem_allEntries hentry) (hinside place hbelow) rfl

lemma plainBelow_of_allEntries (hlink : ∀ place, place < tree.nodes.size → tree.isLinkAt place = false)
    (hone : ∀ x ∈ tree.allEntries, ∀ y ∈ tree.allEntries, x.2.2 = y.2.2 →
      tree.isDirectoryAt x.2.2 = true → x.1 = y.1 ∧ x.2.1 = y.2.1)
    (hstart : ∀ x ∈ tree.allEntries, x.2.2 ≠ start) : tree.PlainBelow start :=
  plainBelow_of_closed (P := fun _ => True) trivial (fun _ _ _ => trivial)
    (fun place hplace _ => hlink place hplace) hone fun x hx _ => hstart x hx

end FileTree

namespace Search

structure Opens (s : Search) (dir : Path) (n : Name) : Prop where
  lists : ∃ names, s.tree.names dir = .ok names ∧ n ∈ names
  isDirectory : s.tree.isDirectory (Path.join dir n) = true
  kept : s.excludes (Path.join dir n) true = false

def Enters (s : Search) (root : Path) (names : List Name) : Prop :=
  ∀ above n, above ++ [n] <+: names → s.Opens (Path.under root above) n

def Keeps (s : Search) (root : Path) (names : List Name) : Prop :=
  ∀ above n, above ++ [n] <+: names → s.excludes (Path.under root (above ++ [n])) true = false

structure Walks (s : Search) (grants : Access → Bool) (root : Path) (start : Nat) (names : List Name)
    (place : Nat) : Prop where
  leads : s.tree.Leads grants start names place
  keeps : s.Keeps root names
  isDirectory : s.tree.isDirectoryAt place = true

variable {s : Search} {root : Path} {names : List Name} {n : Name} {grants : Access → Bool}

lemma enters_nil (s : Search) (root : Path) : s.Enters root [] := Path.forall_step_nil

lemma enters_snoc :
    s.Enters root (names ++ [n]) ↔ s.Enters root names ∧ s.Opens (Path.under root names) n :=
  Path.forall_step_snoc

lemma keeps_nil (s : Search) (root : Path) : s.Keeps root [] := Path.forall_step_nil

lemma keeps_snoc : s.Keeps root (names ++ [n]) ↔
    s.Keeps root names ∧ s.excludes (Path.under root (names ++ [n])) true = false :=
  Path.forall_step_snoc

/-- What a deep search finds in a tree without links, where it takes what `grants` says to go on
through a directory. -/
structure Inventory (s : Search) (grants : Access → Bool) (root : Path) (start : Nat) (d : Findings) :
    Prop where
  /-- In a directory through which the search cannot go on, a directory is found like a file. -/
  found_iff : ∀ o, o ∈ d.found ↔ ∃ names place n next, o.path = Path.under root (names ++ [n]) ∧
    s.Walks grants root start names place ∧ (s.tree.accessAt place).list = true ∧
    (n, next) ∈ s.tree.entriesAt place ∧
    (s.tree.isDirectoryAt next = false ∨ grants (s.tree.accessAt place) = false) ∧
    s.excludes o.path false = false ∧ s.finder.extensions.entryFor? o.path = some o.extension
  found_nodup : (d.found.map Found.path).Nodup
  sorted : d.found.Pairwise fun o p => Path.depth o.path ≤ Path.depth p.path
  faults_iff : ∀ fault, fault ∈ d.faults ↔ ∃ names place, names ≠ [] ∧
    fault = .unreadable (Path.under root names) .denied ∧ s.Walks grants root start names place ∧
    (s.tree.accessAt place).list = false
  faults_nodup : d.faults.Nodup
  none_below_excluded : ∀ above n below, (∀ m ∈ above ++ n :: below, Path.IsName m) → below ≠ [] →
    s.excludes (Path.under root (above ++ [n])) true = true →
      ∀ o ∈ d.found, o.path ≠ Path.under root (above ++ n :: below)

variable {start place : Nat} {v : Visit}

lemma enters_of_visit (hv : v ∈ s.history root) :
    ∃ names, v.dir = Path.under root names ∧ s.Enters root names := by
  refine (history_forall (P := fun dir => ∃ names, dir = Path.under root names ∧
    s.Enters root names) ?_ ⟨[], rfl, enters_nil s root⟩ v hv).2
  rintro v hreports ⟨names, hdir, hnames⟩ child hchild
  obtain ⟨place, listing, n, heq, hn, rfl, hdirectory, hkept⟩ := mem_next.1 hchild
  rw [heq] at hreports
  have hlisting : s.tree.names v.dir = .ok listing :=
    (FileTree.names_of_locate hreports.1).trans hreports.2
  refine ⟨names ++ [n], by rw [Path.under_append, hdir], enters_snoc.2 ⟨hnames, ?_⟩⟩
  rw [← hdir]
  exact ⟨⟨listing, hlisting, hn⟩, hdirectory, hkept⟩

lemma open_of_found {d : Findings} (hdeep : s.deep root = .ok d) {o : Found} (ho : o ∈ d.found) :
    ∃ names n, o.path = Path.under root (names ++ [n]) ∧ s.Enters root names ∧
      (∃ listing, s.tree.names (Path.under root names) = .ok listing ∧ n ∈ listing) ∧
      s.tree.isDirectory o.path = false ∧ s.excludes o.path false = false ∧
      s.finder.extensions.entryFor? o.path = some o.extension := by
  obtain ⟨dir, place, listing, hv, hmem⟩ := (mem_found hdeep).1 ho
  obtain ⟨n, hn, hpath, haccepted⟩ := mem_filesOf.1 hmem
  obtain ⟨names, hdir, hnames⟩ := enters_of_visit hv
  change dir = Path.under root names at hdir
  have hreports := history_reports hv
  have hlisting := (FileTree.names_of_locate hreports.1).trans hreports.2
  rw [hdir] at hpath hlisting
  rw [← Path.under_append] at hpath
  exact ⟨names, n, hpath, hnames, ⟨listing, hlisting, hn⟩, haccepted⟩

section

variable (hnamed : s.tree.WellNamed) (hplain : s.tree.PlainBelow start)
  (hstart : s.tree.locate root = .ok start)

include hnamed

lemma Opens.isName {dir : Path} (h : s.Opens dir n) : Path.IsName n := by
  obtain ⟨listing, hlisting, hn⟩ := h.lists
  exact hnamed.isName hlisting hn

lemma Enters.isName (h : s.Enters root names) : ∀ m ∈ names, Path.IsName m := by
  intro m hm
  obtain ⟨above, below, rfl⟩ := List.append_of_mem hm
  exact (h above m ⟨below, by simp⟩).isName hnamed

include hplain

omit hplain in
lemma Opens.access {dir : Path} (h : s.Opens dir n) (hlocate : s.tree.locate dir = .ok place) :
    (s.tree.accessAt place).opens = true := by
  obtain ⟨listing, hlisting, hn⟩ := h.lists
  have hname := hnamed.isName hlisting hn
  rw [FileTree.names_of_locate hlocate] at hlisting
  refine Bool.and_eq_true_iff.2 ⟨(FileTree.namesAt_eq_ok_iff.1 hlisting).1, ?_⟩
  by_contra hsearch
  obtain ⟨next, hnext, -⟩ := FileTree.locate_of_isDirectory h.isDirectory
  rw [FileTree.locate_join hname hlocate, FileTree.resolve_of_unsearchable
    (FileTree.isDirectoryAt_of_names hlisting) hname.ne_nil (eq_false_of_ne_true hsearch)] at hnext
  exact absurd hnext nofun

lemma Opens.entry {dir : Path} (h : s.Opens dir n) (hlocate : s.tree.locate dir = .ok place)
    (hbelow : s.tree.Below start place) : ∃ next, s.tree.locate (Path.join dir n) = .ok next ∧
      s.tree.isDirectoryAt next = true ∧ (n, next) ∈ s.tree.entriesAt place := by
  have hname := h.isName hnamed
  obtain ⟨next, hnext, hdirectory⟩ := FileTree.locate_of_isDirectory h.isDirectory
  have hresolve := (FileTree.locate_join hname hlocate).symm.trans hnext
  exact ⟨next, hnext, hdirectory, hplain.entry_of_resolve hbelow hname hresolve⟩

include hstart

lemma Enters.locate (h : s.Enters root names) :
    ∃ place, s.tree.locate (Path.under root names) = .ok place ∧ s.tree.Below start place := by
  induction names using List.reverseRecOn with
  | nil => exact ⟨start, hstart, .start⟩
  | append_singleton names n ih =>
    obtain ⟨hnames, hopens⟩ := enters_snoc.1 h
    obtain ⟨place, hlocate, hbelow⟩ := ih hnames
    obtain ⟨next, hnext, -, hentry⟩ := hopens.entry hnamed hplain hlocate hbelow
    rw [Path.under_append]
    exact ⟨next, hnext, hbelow.entry hentry⟩

lemma Enters.last_entry (h : s.Enters root (names ++ [n]))
    (hlocate : s.tree.locate (Path.under root (names ++ [n])) = .ok place) :
    ∃ parent, s.tree.locate (Path.under root names) = .ok parent ∧ s.tree.Below start parent ∧
      (n, place) ∈ s.tree.entriesAt parent ∧ s.tree.isDirectoryAt place = true := by
  obtain ⟨hnames, hopens⟩ := enters_snoc.1 h
  obtain ⟨parent, hparent, hbelow⟩ := hnames.locate hnamed hplain hstart
  obtain ⟨next, hnext, hdirectory, hentry⟩ := hopens.entry hnamed hplain hparent hbelow
  rw [Path.under_append, hnext] at hlocate
  obtain rfl := Except.ok.inj hlocate
  exact ⟨parent, hparent, hbelow, hentry, hdirectory⟩

lemma Enters.unique {others : List Name} (h : s.Enters root names) (hother : s.Enters root others)
    (hlocate : s.tree.locate (Path.under root names) = .ok place)
    (hagain : s.tree.locate (Path.under root others) = .ok place) : names = others := by
  induction names using List.reverseRecOn generalizing others place with
  | nil =>
    obtain rfl := Except.ok.inj (hstart.symm.trans hlocate)
    cases others using List.reverseRecOn with
    | nil => rfl
    | append_singleton others m =>
      obtain ⟨parent, -, hbelow, hentry, -⟩ := hother.last_entry hnamed hplain hstart hagain
      exact absurd hentry (hplain.no_entry parent m hbelow)
  | append_singleton names n ih =>
    obtain ⟨parent, hparent, hbelow, hentry, hdirectory⟩ := h.last_entry hnamed hplain hstart hlocate
    cases others using List.reverseRecOn with
    | nil =>
      obtain rfl := Except.ok.inj (hstart.symm.trans hagain)
      exact absurd hentry (hplain.no_entry parent n hbelow)
    | append_singleton others m =>
      obtain ⟨other, hothers, hbelow', hentry', -⟩ := hother.last_entry hnamed hplain hstart hagain
      obtain ⟨rfl, rfl⟩ := hplain.one_entry _ _ _ _ _ hbelow hbelow' hentry hentry' hdirectory
      rw [ih (enters_snoc.1 h).1 (enters_snoc.1 hother).1 hparent hothers]

lemma walks_of_enters (hdirectory : s.tree.isDirectoryAt start = true) (h : s.Enters root names)
    (hlocate : s.tree.locate (Path.under root names) = .ok place) :
    s.Walks Access.opens root start names place := by
  induction names using List.reverseRecOn generalizing place with
  | nil =>
    obtain rfl := Except.ok.inj (hstart.symm.trans hlocate)
    exact ⟨.nil, keeps_nil s root, hdirectory⟩
  | append_singleton names n ih =>
    obtain ⟨hnames, hopens⟩ := enters_snoc.1 h
    obtain ⟨parent, hparent, -, hentry, hplace⟩ := h.last_entry hnamed hplain hstart hlocate
    have habove := ih hnames hparent
    refine ⟨habove.leads.snoc (hopens.access hnamed hparent) hentry,
      keeps_snoc.2 ⟨habove.keeps, ?_⟩, hplace⟩
    rw [Path.under_append]
    exact hopens.kept

lemma enters_of_walks (h : s.Walks Access.opens root start names place) :
    s.Enters root names ∧ s.tree.locate (Path.under root names) = .ok place := by
  obtain ⟨hleads, hkeeps, hdirectory⟩ := h
  induction hleads with
  | nil => exact ⟨enters_nil s root, hstart⟩
  | @snoc names parent n place hleads hgrants hentry ih =>
    obtain ⟨hkept, hlast⟩ := keeps_snoc.1 hkeeps
    obtain ⟨henters, hlocate⟩ := ih hkept (FileTree.isDirectoryAt_of_entry hentry)
    obtain ⟨hlist, hsearch⟩ := Bool.and_eq_true_iff.1 hgrants
    have hlisting := (FileTree.names_of_locate hlocate).trans (FileTree.namesAt_of_listable hlist)
    have hmem : n ∈ (s.tree.entriesAt parent).map Prod.fst := List.mem_map.2 ⟨_, hentry, rfl⟩
    have hplace : s.tree.locate (Path.join (Path.under root names) n) = .ok place := by
      rw [FileTree.locate_join (hnamed.isName hlisting hmem) hlocate]
      exact FileTree.resolve_of_entry hnamed hsearch hentry
        (hplain.no_link place ((FileTree.below_of_leads hleads).entry hentry))
    rw [Path.under_append] at hlast ⊢
    refine ⟨enters_snoc.2 ⟨henters, ⟨_, hlisting, hmem⟩, ?_, hlast⟩, hplace⟩
    exact (FileTree.isDirectory_of_locate hplace).trans hdirectory

omit hstart in
lemma file_iff (hlocate : s.tree.locate (Path.under root names) = .ok place)
    (hbelow : s.tree.Below start place) {listing : List Name}
    (hlisting : s.tree.names (Path.under root names) = .ok listing) :
    n ∈ listing ∧ s.tree.isDirectory (Path.under root (names ++ [n])) = false ↔
      ∃ next, (n, next) ∈ s.tree.entriesAt place ∧
        (s.tree.isDirectoryAt next = false ∨ (s.tree.accessAt place).search = false) := by
  have hat := (FileTree.names_of_locate hlocate).symm.trans hlisting
  have hjoin (hmem : n ∈ listing) := FileTree.isDirectory_join_eq_false (hnamed.isName hlisting hmem) hlocate
  rw [Path.under_append]
  constructor
  · rintro ⟨hmem, hfile⟩
    obtain ⟨next, hentry⟩ := (FileTree.mem_listing_iff hat).1 hmem
    refine ⟨next, hentry, ?_⟩
    cases hsearch : (s.tree.accessAt place).search with
    | false => exact Or.inr rfl
    | true =>
      have hlink := hplain.no_link next (hbelow.entry hentry)
      exact Or.inl ((hjoin hmem).1 hfile next (FileTree.resolve_of_entry hnamed hsearch hentry hlink))
  · rintro ⟨next, hentry, hfile⟩
    have hmem := (FileTree.mem_listing_iff hat).2 ⟨next, hentry⟩
    refine ⟨hmem, (hjoin hmem).2 fun other hother => ?_⟩
    cases hsearch : (s.tree.accessAt place).search with
    | false =>
      rw [FileTree.resolve_of_unsearchable (FileTree.isDirectoryAt_of_entry hentry)
        (hnamed.isName hlisting hmem).ne_nil hsearch] at hother
      exact absurd hother nofun
    | true =>
      have hlink := hplain.no_link next (hbelow.entry hentry)
      rw [FileTree.resolve_of_entry hnamed hsearch hentry hlink] at hother
      exact Except.ok.inj hother ▸ hfile.resolve_right (by simp [hsearch])

lemma dir_of_visit (hv : v ∈ s.history root) (hplace : v.place? = some place)
    (hnames : s.Enters root names) (hlocate : s.tree.locate (Path.under root names) = .ok place) :
    v.dir = Path.under root names := by
  obtain ⟨others, hdir, hothers⟩ := enters_of_visit hv
  have hagain := (history_reports hv).locate hplace
  rw [hdir] at hagain
  rw [hdir, hothers.unique hnamed hplain hstart hnames hagain hlocate]

lemma visit_of_enters (hdirectory : s.tree.isDirectoryAt start = true) (hnames : s.Enters root names)
    (hlocate : s.tree.locate (Path.under root names) = .ok place) :
    ∃ v ∈ s.history root, v.place? = some place ∧ v.dir = Path.under root names := by
  induction names using List.reverseRecOn generalizing place with
  | nil =>
    obtain rfl := Except.ok.inj (hstart.symm.trans hlocate)
    obtain ⟨v, hv, hplace, -⟩ := history_root hnamed hstart hdirectory
    exact ⟨v, hv, hplace, dir_of_visit hnamed hplain hstart hv hplace hnames hlocate⟩
  | append_singleton names n ih =>
    obtain ⟨habove, hopens⟩ := enters_snoc.1 hnames
    obtain ⟨parent, hparent, -⟩ := habove.locate hnamed hplain hstart
    obtain ⟨v, hv, hplace, hdir⟩ := ih habove hparent
    obtain ⟨listing, hlisting, hn⟩ := hopens.lists
    have hlisted : v = .listed v.dir parent listing := by
      refine (history_reports hv).eq_listed hplace ?_
      rw [← FileTree.names_of_locate hparent]
      exact hlisting
    have hchild : Path.under root (names ++ [n]) ∈ s.next v := by
      rw [Path.under_append, ← hdir]
      exact mem_next.2 ⟨parent, listing, n, hlisted, hn, rfl, hdir ▸ hopens.isDirectory,
        hdir ▸ hopens.kept⟩
    obtain ⟨w, hw, hnext, -⟩ := history_next hnamed hv hchild hlocate
    exact ⟨w, hw, hnext, dir_of_visit hnamed hplain hstart hw hnext hnames hlocate⟩

lemma mem_found_iff_open {d : Findings} (hdirectory : s.tree.isDirectoryAt start = true)
    (hdeep : s.deep root = .ok d) (o : Found) :
    o ∈ d.found ↔ ∃ names n, o.path = Path.under root (names ++ [n]) ∧ s.Enters root names ∧
      (∃ listing, s.tree.names (Path.under root names) = .ok listing ∧ n ∈ listing) ∧
      s.tree.isDirectory o.path = false ∧ s.excludes o.path false = false ∧
      s.finder.extensions.entryFor? o.path = some o.extension := by
  refine ⟨open_of_found hdeep, ?_⟩
  rintro ⟨names, n, hpath, hnames, ⟨listing, hlisting, hn⟩, haccepted⟩
  obtain ⟨place, hlocate, -⟩ := hnames.locate hnamed hplain hstart
  obtain ⟨v, hv, hplace, hdir⟩ := visit_of_enters hnamed hplain hstart hdirectory hnames hlocate
  rw [FileTree.names_of_locate hlocate] at hlisting
  have hlisted := (history_reports hv).eq_listed hplace hlisting
  rw [Path.under_append, ← hdir] at hpath
  rw [mem_found hdeep]
  exact ⟨v.dir, place, listing, hlisted ▸ hv, mem_filesOf.2 ⟨n, hn, hpath, haccepted⟩⟩

lemma mem_faults_iff_entered {d : Findings} (hdirectory : s.tree.isDirectoryAt start = true)
    (hdeep : s.deep root = .ok d) (fault : Fault) :
    fault ∈ d.faults ↔ ∃ names cause, names ≠ [] ∧ fault = .unreadable (Path.under root names) cause ∧
      s.Enters root names ∧ s.tree.names (Path.under root names) = .error cause := by
  have hroot : s.tree.isDirectory root = true := by
    rw [FileTree.isDirectory_of_locate hstart]
    exact hdirectory
  rw [mem_faults hroot hdeep]
  constructor
  · rintro ⟨dir, place, cause, hv, rfl⟩
    obtain ⟨names, hdir, hnames⟩ := enters_of_visit hv
    change dir = Path.under root names at hdir
    have hreports := history_reports hv
    have hcause := (FileTree.names_of_locate hreports.1).trans hreports.2
    refine ⟨names, cause, ?_, by rw [hdir], hnames, hdir ▸ hcause⟩
    rintro rfl
    rw [hdir, Path.under_nil] at hcause
    obtain ⟨fault, herror⟩ := (deep_error_iff hroot).2 ⟨cause, hcause⟩
    exact absurd (hdeep.symm.trans herror) nofun
  · rintro ⟨names, cause, -, rfl, hnames, hcause⟩
    obtain ⟨place, hlocate, -⟩ := hnames.locate hnamed hplain hstart
    obtain ⟨v, hv, hplace, hdir⟩ := visit_of_enters hnamed hplain hstart hdirectory hnames hlocate
    rw [FileTree.names_of_locate hlocate] at hcause
    have hrefused := (history_reports hv).eq_refused hplace hcause
    exact ⟨v.dir, place, cause, hrefused ▸ hv, by rw [hdir]⟩

lemma mem_found_iff_walks {d : Findings} (hdirectory : s.tree.isDirectoryAt start = true)
    (hdeep : s.deep root = .ok d) (o : Found) :
    o ∈ d.found ↔ ∃ names place n next, o.path = Path.under root (names ++ [n]) ∧
      s.Walks Access.opens root start names place ∧ (s.tree.accessAt place).list = true ∧
      (n, next) ∈ s.tree.entriesAt place ∧
      (s.tree.isDirectoryAt next = false ∨ (s.tree.accessAt place).opens = false) ∧
      s.excludes o.path false = false ∧ s.finder.extensions.entryFor? o.path = some o.extension := by
  rw [mem_found_iff_open hnamed hplain hstart hdirectory hdeep]
  constructor
  · rintro ⟨names, n, hpath, hnames, ⟨listing, hlisting, hn⟩, hfile, haccepted⟩
    obtain ⟨place, hlocate, hbelow⟩ := hnames.locate hnamed hplain hstart
    have hat := (FileTree.names_of_locate hlocate).symm.trans hlisting
    obtain ⟨next, hentry, hnext⟩ :=
      (file_iff hnamed hplain hlocate hbelow hlisting).1 ⟨hn, hpath ▸ hfile⟩
    have hlist := (FileTree.namesAt_eq_ok_iff.1 hat).1
    refine ⟨names, place, n, next, hpath, walks_of_enters hnamed hplain hstart hdirectory hnames hlocate,
      hlist, hentry, ?_, haccepted⟩
    rwa [Access.opens, hlist, Bool.true_and]
  · rintro ⟨names, place, n, next, hpath, hwalks, hlist, hentry, hnext, haccepted⟩
    obtain ⟨hnames, hlocate⟩ := enters_of_walks hnamed hplain hstart hwalks
    have hlisting := (FileTree.names_of_locate hlocate).trans (FileTree.namesAt_of_listable hlist)
    rw [Access.opens, hlist, Bool.true_and] at hnext
    obtain ⟨hn, hfile⟩ :=
      (file_iff hnamed hplain hlocate (FileTree.below_of_leads hwalks.leads) hlisting).2 ⟨next, hentry, hnext⟩
    exact ⟨names, n, hpath, hnames, ⟨_, hlisting, hn⟩, hpath ▸ hfile, haccepted⟩

lemma mem_faults_iff_walks {d : Findings} (hdirectory : s.tree.isDirectoryAt start = true)
    (hdeep : s.deep root = .ok d) (fault : Fault) :
    fault ∈ d.faults ↔ ∃ names place, names ≠ [] ∧
      fault = .unreadable (Path.under root names) .denied ∧
      s.Walks Access.opens root start names place ∧ (s.tree.accessAt place).list = false := by
  rw [mem_faults_iff_entered hnamed hplain hstart hdirectory hdeep]
  constructor
  · rintro ⟨names, cause, hne, rfl, hnames, hcause⟩
    obtain ⟨place, hlocate, -⟩ := hnames.locate hnamed hplain hstart
    have hwalks := walks_of_enters hnamed hplain hstart hdirectory hnames hlocate
    rw [FileTree.names_of_locate hlocate] at hcause
    have hlist : (s.tree.accessAt place).list = false := by
      by_contra hlist
      rw [FileTree.namesAt_of_listable (eq_true_of_ne_false hlist)] at hcause
      exact absurd hcause nofun
    rw [FileTree.namesAt_of_unlistable hwalks.isDirectory hlist] at hcause
    exact ⟨names, place, hne, by rw [Except.error.inj hcause], hwalks, hlist⟩
  · rintro ⟨names, place, hne, rfl, hwalks, hlist⟩
    obtain ⟨hnames, hlocate⟩ := enters_of_walks hnamed hplain hstart hwalks
    refine ⟨names, .denied, hne, rfl, hnames, (FileTree.names_of_locate hlocate).trans ?_⟩
    exact FileTree.namesAt_of_unlistable hwalks.isDirectory hlist

lemma inventory_of_deep {d : Findings} (hdirectory : s.tree.isDirectoryAt start = true)
    (hdeep : s.deep root = .ok d) : s.Inventory Access.opens root start d := by
  have hroot : s.tree.isDirectory root = true := by
    rw [FileTree.isDirectory_of_locate hstart]
    exact hdirectory
  constructor
  case found_iff => exact mem_found_iff_walks hnamed hplain hstart hdirectory hdeep
  case found_nodup =>
    refine List.pairwise_map.2 ((List.pairwise_map.1 (found_slots_nodup hnamed hdeep)).imp ?_)
    exact fun hne heq => hne (congrArg s.tree.slot? heq)
  case sorted => exact found_sorted hnamed hdeep
  case faults_iff => exact mem_faults_iff_walks hnamed hplain hstart hdirectory hdeep
  case faults_nodup =>
    refine List.Pairwise.of_map s.tree.refusal? ?_ (faults_nodup hroot hdeep)
    exact fun _ _ hne heq => hne (congrArg s.tree.refusal? heq)
  case none_below_excluded =>
    intro above n below hproper hbelow hexcluded o ho hpath
    obtain ⟨names, m, heq, hnames, ⟨listing, hlisting, hm⟩, -⟩ := open_of_found hdeep ho
    have hlists : ∀ k ∈ names ++ [m], Path.IsName k := by
      intro k hk
      rcases List.mem_append.1 hk with hk | hk
      · exact hnames.isName hnamed k hk
      · exact List.mem_singleton.1 hk ▸ hnamed.isName hlisting hm
    have hsame := Path.under_inj hproper hlists (hpath.symm.trans heq)
    have hinit : above ++ [n] <+: names ++ [m] := ⟨below, by rw [← hsame]; simp⟩
    rcases List.prefix_concat_iff.1 hinit with hwhole | hinit
    · have hcancel : above ++ n :: below = above ++ [n] := hsame.trans hwhole.symm
      exact hbelow (List.cons.inj (List.append_cancel_left hcancel)).2
    · have hkept := (hnames above n hinit).kept
      rw [← Path.under_append, hexcluded] at hkept
      exact absurd hkept nofun

end

lemma Walks.mono {others : Access → Bool} {start place : Nat} (hgrants : ∀ place,
    s.tree.Below start place →
      grants (s.tree.accessAt place) = true → others (s.tree.accessAt place) = true)
    (h : s.Walks grants root start names place) : s.Walks others root start names place :=
  ⟨h.leads.mono hgrants, h.keeps, h.isDirectory⟩

lemma Inventory.of_searchable {start : Nat} {d : Findings}
    (hsearch : ∀ place, s.tree.Below start place →
      (s.tree.accessAt place).list = true → (s.tree.accessAt place).search = true)
    (h : s.Inventory Access.opens root start d) : s.Inventory Access.list root start d := by
  have hopens : ∀ place, s.tree.Below start place →
      (s.tree.accessAt place).opens = (s.tree.accessAt place).list := by
    intro place hbelow
    cases hlist : (s.tree.accessAt place).list with
    | false => rw [Access.opens, hlist, Bool.false_and]
    | true => rw [Access.opens, hlist, hsearch place hbelow hlist, Bool.true_and]
  have hwalks : ∀ names place, s.Walks Access.opens root start names place ↔
      s.Walks Access.list root start names place := fun names place =>
    ⟨Walks.mono fun place hbelow hgrants => hopens place hbelow ▸ hgrants,
      Walks.mono fun place hbelow hgrants => (hopens place hbelow).trans hgrants⟩
  refine { h with found_iff := fun o => (h.found_iff o).trans ?_, faults_iff := fun fault => ?_ }
  · refine exists_congr fun names => exists_congr fun place => exists_congr fun n =>
      exists_congr fun next => and_congr_right fun _ => ?_
    rw [hwalks]
    refine and_congr_right fun hwalk => ?_
    rw [hopens place (FileTree.below_of_leads hwalk.leads)]
  · simp only [h.faults_iff, hwalks]

theorem deep_inventories_tree (s : Search) (root : Path) (hnamed : s.tree.WellNamed) :
    (s.tree.isDirectory root = false →
      ∀ f : Finder, f.deep s.tree root = .ok (.ofNote (.noDirectory root))) ∧
    ∀ start, s.tree.locate root = .ok start → s.tree.isDirectoryAt start = true →
      s.tree.PlainBelow start →
      (∀ f : Finder, f.search s.tree root = .ok s → f.deep s.tree root = s.deep root) ∧
      ((∃ fault, s.deep root = .error fault) ↔ (s.tree.accessAt start).list = false) ∧
      ∀ d, s.deep root = .ok d → s.Inventory Access.opens root start d ∧
        ((∀ place, s.tree.Below start place → (s.tree.accessAt place).list = true →
          (s.tree.accessAt place).search = true) → s.Inventory Access.list root start d) := by
  constructor
  · intro hroot f
    rw [Finder.deep, hroot]
    rfl
  intro start hstart hdirectory hplain
  have hroot := (FileTree.isDirectory_of_locate hstart).trans hdirectory
  refine ⟨fun f hsearch => deep_of_search hroot hsearch, ?_, fun d hdeep => ?_⟩
  · rw [deep_error_iff hroot, FileTree.names_of_locate hstart]
    cases hlist : (s.tree.accessAt start).list with
    | true => simp [FileTree.namesAt_of_listable hlist]
    | false => simp [FileTree.namesAt_of_unlistable hdirectory hlist]
  · have hinventory := inventory_of_deep hnamed hplain hstart hdirectory hdeep
    exact ⟨hinventory, hinventory.of_searchable⟩

/-- Files in a directory, in one that cannot be listed, in one that cannot be searched, and in one that is
left out though its file is not. -/
def pruned : Search where
  tree := ⟨#[.directory 0 [(Path.of "shut", 1), (Path.of "skip", 2), (Path.of "a.x", 4), (Path.of "sub", 5)]
      .full,
    .directory 0 [(Path.of "b.x", 3)] .shut, .directory 0 [(Path.of "c.x", 3)] .full,
    .file [] false, .file [] false,
    .directory 0 [(Path.of "d.x", 4), (Path.of "veiled", 6)] .full,
    .directory 5 [(Path.of "e.x", 3), (Path.of "f.x", 7)] ⟨true, false⟩, .directory 6 [] .full], 0, 40⟩
  finder := ⟨⟨["x".toList]⟩, []⟩
  excludes path isDirectory := isDirectory && path == Path.of "/skip"

theorem deep_inventories_pruned : ∃ d, pruned.deep (Path.of "/") = .ok d ∧
    pruned.Inventory Access.opens (Path.of "/") 0 d := by
  have hnamed : pruned.tree.WellNamed := by decide
  have hplain : pruned.tree.PlainBelow 0 :=
    FileTree.plainBelow_of_allEntries (by decide) (by decide) (by decide)
  obtain ⟨-, herror, hinventory⟩ :=
    (deep_inventories_tree pruned (Path.of "/") hnamed).2 0 rfl (by decide) hplain
  have hroot : pruned.tree.isDirectory (Path.of "/") = true := by decide
  obtain ⟨d, hdeep⟩ := exists_deep hroot rfl
  exact ⟨d, hdeep, (hinventory d hdeep).1⟩

/-- A directory that can be listed but not searched, holding one that can be listed and one that cannot. -/
def veiled : Search where
  tree := ⟨#[.directory 0 [(Path.of "t", 1)] .full,
    .directory 0 [(Path.of "d.x", 2), (Path.of "sub", 3)] ⟨true, false⟩,
    .directory 1 [] .full, .directory 1 [] .shut], 0, 40⟩
  finder := ⟨⟨["x".toList]⟩, []⟩
  excludes _ _ := false

theorem deep_misses_veiled : (∃ d, veiled.deep (Path.of "/t") = .ok d ∧
      d.found = [⟨Path.of "/t/d.x", "x".toList⟩] ∧ d.faults = [] ∧
      ¬ veiled.Inventory Access.list (Path.of "/t") 1 d) ∧
    veiled.tree.entriesAt 1 = [(Path.of "d.x", 2), (Path.of "sub", 3)] ∧
    veiled.tree.isDirectoryAt 2 = true ∧ veiled.tree.isDirectoryAt 3 = true ∧
    (veiled.tree.accessAt 3).list = false ∧
    veiled.finder.deep veiled.tree (Path.of "/t/sub") = .ok (.ofNote (.noDirectory (Path.of "/t/sub"))) := by
  refine ⟨⟨⟨[⟨Path.of "/t/d.x", "x".toList⟩], [], [.deepFinished (Path.of "/t") 1 0]⟩, ?_, rfl, rfl, ?_⟩,
    rfl, rfl, rfl, rfl, rfl⟩
  · cbv
  · intro h
    have hleads : veiled.tree.Leads Access.list 1 [Path.of "sub"] 3 := .snoc .nil rfl (by decide)
    have hfault := (h.faults_iff (.unreadable (Path.of "/t/sub") .denied)).2
      ⟨[Path.of "sub"], 3, by decide, rfl, ⟨hleads, fun _ _ _ => rfl, rfl⟩, rfl⟩
    exact absurd hfault List.not_mem_nil

end Search

end LexRules
