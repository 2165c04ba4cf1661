import LexRules.Discovery.Project
import LexRules.Proofs.Discovery.Layers
import LexRules.Proofs.Discovery.Plain

/-! What lies in the scope of a search is told by the tree and the settings alone, however far the
search gets. Without links, a search finds the part of its scope that it reaches, and every directory
that stops it is a fault of its own, unless the search cannot tell that it is one. -/

namespace LexRules

namespace Exclusion

lemma ofLines_eq_ok_iff (lines : List Text) :
    (∃ patterns, ofLines lines = .ok patterns) ↔ ∀ line ∈ lines, ∃ e, ofLine? line = .ok e := by
  induction lines with
  | nil => exact ⟨fun _ _ h => absurd h List.not_mem_nil, fun _ => ⟨[], rfl⟩⟩
  | cons line lines ih =>
    rw [List.forall_mem_cons, ← ih, ofLines]
    cases ofLine? line with
    | error fault => exact ⟨fun ⟨_, h⟩ => absurd h nofun, fun ⟨⟨_, h⟩, _⟩ => absurd h nofun⟩
    | ok e =>
      cases ofLines lines with
      | error fault => exact ⟨fun ⟨_, h⟩ => absurd h nofun, fun ⟨_, _, h⟩ => absurd h nofun⟩
      | ok patterns => exact ⟨fun _ => ⟨⟨e, rfl⟩, patterns, rfl⟩, fun _ => ⟨_, rfl⟩⟩

end Exclusion

namespace FileTree

def PlainUnder (tree : FileTree) (dir : Path) : Prop :=
  ∀ start, tree.locate dir = .ok start → tree.isDirectoryAt start = true → tree.PlainBelow start

end FileTree

namespace Finder

def leavesOut (f : Finder) (dir path : Path) (isDirectory : Bool) : Bool :=
  match Exclusion.ofLines f.exclude with
  | .ok patterns => Exclusion.excludes patterns (Exclusion.relativeTo dir path) isDirectory
  | .error _ => false

def searchOf (f : Finder) (tree : FileTree) (dir : Path) : Search := ⟨tree, f, f.leavesOut dir⟩

/-- A directory that lies in the scope of a deep search, which goes through directories that grant what
is asked of them. -/
def InScope (f : Finder) (tree : FileTree) (grants : Access → Bool) (dir : Path) (names : List Name) :
    Prop :=
  ∃ start place, tree.locate dir = .ok start ∧ (f.searchOf tree dir).Walks grants dir start names place

/-- A file that a search is for: the entry `n` of the directory that `names` lead to. Where that
directory does not grant what is asked of it, a directory in it counts as a file. -/
structure Qualifies (f : Finder) (tree : FileTree) (grants : Access → Bool) (deep : Bool) (dir : Path)
    (names : List Name) (n : Name) : Prop where
  depth : deep = false → names = []
  entry : ∃ start place next, tree.locate dir = .ok start ∧
    (f.searchOf tree dir).Walks grants dir start names place ∧ (n, next) ∈ tree.entriesAt place ∧
    (tree.isDirectoryAt next = false ∨ grants (tree.accessAt place) = false)
  kept : f.leavesOut dir (Path.under dir (names ++ [n])) false = false
  extension : ∃ ext, f.extensions.entryFor? (Path.under dir (names ++ [n])) = some ext

def ValidPatterns (f : Finder) : Prop := ∀ line ∈ f.exclude, ∃ e, Exclusion.ofLine? line = .ok e

def Reaches (f : Finder) (tree : FileTree) (dir : Path) (names : List Name) : Prop :=
  f.ValidPatterns ∧ ∀ above, above <+: names → ∃ listing, tree.names (Path.under dir above) = .ok listing

variable {f : Finder} {tree : FileTree} {dir : Path} {names : List Name} {n : Name} {deep : Bool}
  {grants : Access → Bool}

lemma search_eq_ok (h : f.ValidPatterns) : f.search tree dir = .ok (f.searchOf tree dir) := by
  obtain ⟨patterns, hpatterns⟩ := (Exclusion.ofLines_eq_ok_iff f.exclude).2 h
  have hleaves : f.leavesOut dir = fun path isDirectory =>
      Exclusion.excludes patterns (Exclusion.relativeTo dir path) isDirectory := by
    funext path isDirectory
    rw [leavesOut, hpatterns]
  rw [search, hpatterns, searchOf, hleaves]
  rfl

lemma search_eq_error (h : ¬ f.ValidPatterns) (tree : FileTree) (dir : Path) :
    ∃ fault, f.search tree dir = .error fault := by
  rw [search]
  cases hpatterns : Exclusion.ofLines f.exclude with
  | error fault => exact ⟨fault, rfl⟩
  | ok patterns => exact absurd ((Exclusion.ofLines_eq_ok_iff f.exclude).1 ⟨patterns, hpatterns⟩) h

lemma reaches_nil : f.Reaches tree dir [] ↔ f.ValidPatterns ∧ ∃ listing, tree.names dir = .ok listing := by
  refine and_congr_right fun _ => ⟨fun h => h [] (List.prefix_refl []), fun h above habove => ?_⟩
  rw [List.prefix_nil.1 habove]
  exact h

lemma Reaches.start (h : f.Reaches tree dir names) : f.Reaches tree dir [] :=
  reaches_nil.2 ⟨h.1, h.2 [] List.nil_prefix⟩

lemma Reaches.isDirectory (h : f.Reaches tree dir names) : tree.isDirectory dir = true := by
  obtain ⟨listing, hlisting⟩ := (reaches_nil.1 h.start).2
  rw [FileTree.names] at hlisting
  cases hlocate : tree.locate dir with
  | error cause =>
    rw [hlocate] at hlisting
    cases hlisting
  | ok place =>
    rw [hlocate] at hlisting
    rw [FileTree.isDirectory_of_locate hlocate]
    exact FileTree.isDirectoryAt_of_names hlisting

lemma findOn_of_not_directory (h : tree.isDirectory dir = false) :
    (f.findOn tree deep dir).found = [] ∧ (f.findOn tree deep dir).faults = [] := by
  rw [findOn, find]
  cases deep <;> simp [Finder.deep, Finder.shallow, h, Findings.ofNote]

lemma find_error (hdirectory : tree.isDirectory dir = true) (h : ¬ f.Reaches tree dir [])
    (deep : Bool) : ∃ fault, f.find tree deep dir = .error fault := by
  rw [find, Finder.deep, Finder.shallow, hdirectory]
  by_cases hpatterns : f.ValidPatterns
  · obtain ⟨cause, hcause⟩ : ∃ cause, tree.names dir = .error cause := by
      cases hnames : tree.names dir with
      | error cause => exact ⟨cause, rfl⟩
      | ok listing => exact absurd (reaches_nil.2 ⟨hpatterns, listing, hnames⟩) h
    have hdeep : (f.searchOf tree dir).deep dir = .error (.unreadable dir cause) := by
      rw [Search.deep_eq hdirectory, show (f.searchOf tree dir).tree = tree from rfl, hcause]
    rw [search_eq_ok hpatterns]
    cases deep with
    | true => exact ⟨_, hdeep⟩
    | false => exact ⟨_, (Search.shallow_error_iff hdirectory _).2 hdeep⟩
  · obtain ⟨fault, hfault⟩ := search_eq_error hpatterns tree dir
    rw [hfault]
    cases deep with
    | true => exact ⟨fault, rfl⟩
    | false => exact ⟨fault, rfl⟩

lemma findOn_of_not_reaches (hdirectory : tree.isDirectory dir = true)
    (h : ¬ f.Reaches tree dir []) :
    (f.findOn tree deep dir).found = [] ∧ (f.findOn tree deep dir).faults ≠ [] := by
  obtain ⟨fault, hfault⟩ := find_error hdirectory h deep
  rw [findOn, hfault]
  exact ⟨rfl, List.cons_ne_nil fault []⟩

lemma findOn_deep (h : f.Reaches tree dir []) :
    (f.searchOf tree dir).deep dir = .ok (f.findOn tree true dir) := by
  obtain ⟨hpatterns, listing, hlisting⟩ := reaches_nil.1 h
  have hdeep : f.find tree true dir = (f.searchOf tree dir).deep dir :=
    Search.deep_of_search (s := f.searchOf tree dir) h.isDirectory (search_eq_ok hpatterns)
  cases hfound : (f.searchOf tree dir).deep dir with
  | error fault =>
    obtain ⟨cause, hcause⟩ := (Search.deep_error_iff h.isDirectory).1 ⟨fault, hfound⟩
    exact absurd (hlisting.symm.trans hcause) nofun
  | ok d => rw [findOn, hdeep, hfound]

lemma findOn_shallow (hpatterns : f.ValidPatterns) {listing : List Name}
    (hlisting : tree.names dir = .ok listing) :
    (f.findOn tree false dir).found = (f.searchOf tree dir).filesOf (Path.entries dir listing) ∧
      (f.findOn tree false dir).faults = [] := by
  have hdirectory := (reaches_nil.2 ⟨hpatterns, listing, hlisting⟩).isDirectory
  have hshallow : f.find tree false dir = (f.searchOf tree dir).shallow dir := by
    rw [find, if_neg Bool.false_ne_true, Finder.shallow, hdirectory, search_eq_ok hpatterns]
    rfl
  rw [findOn, hshallow, Search.shallow, show (f.searchOf tree dir).tree = tree from rfl, hlisting]
  exact ⟨rfl, rfl⟩

lemma found_of_not_reaches (h : ¬ f.Reaches tree dir []) : (f.findOn tree deep dir).found = [] := by
  cases hroot : tree.isDirectory dir with
  | true => exact (findOn_of_not_reaches hroot h).1
  | false => exact (findOn_of_not_directory hroot).1

lemma open_of_findOn {o : Found} (ho : o ∈ (f.findOn tree deep dir).found) :
    ∃ names n, o.path = Path.under dir (names ++ [n]) ∧ (deep = false → names = []) ∧
      (f.searchOf tree dir).Enters dir names ∧
      (∃ listing, tree.names (Path.under dir names) = .ok listing ∧ n ∈ listing) ∧
      tree.isDirectory o.path = false ∧ f.leavesOut dir o.path false = false ∧
      f.extensions.entryFor? o.path = some o.extension := by
  by_cases hreaches : f.Reaches tree dir []
  case neg =>
    rw [found_of_not_reaches hreaches] at ho
    exact absurd ho List.not_mem_nil
  cases deep with
  | true =>
    obtain ⟨names, n, hpath, hopen⟩ := Search.open_of_found (findOn_deep hreaches) ho
    exact ⟨names, n, hpath, nofun, hopen⟩
  | false =>
    obtain ⟨hpatterns, listing, hlisting⟩ := reaches_nil.1 hreaches
    rw [(findOn_shallow hpatterns hlisting).1, Search.mem_filesOf] at ho
    obtain ⟨n, hn, hpath, haccepted⟩ := ho
    exact ⟨[], n, hpath, fun _ => rfl, Search.enters_nil _ dir, ⟨listing, hlisting, hn⟩, haccepted⟩

section

variable {start place next : Nat} (hnamed : tree.WellNamed) (hplain : tree.PlainBelow start)
  (hstart : tree.locate dir = .ok start)

include hnamed hplain hstart

lemma walks_opens (h : (f.searchOf tree dir).Walks Access.search dir start names place)
    (hlists : ∀ above n, above ++ [n] <+: names →
      ∃ listing, tree.names (Path.under dir above) = .ok listing) :
    (f.searchOf tree dir).Walks Access.opens dir start names place := by
  obtain ⟨hleads, hkeeps, hdirectory⟩ := h
  induction hleads with
  | nil => exact ⟨.nil, hkeeps, hdirectory⟩
  | @snoc names parent n place hleads hsearch hentry ih =>
    obtain ⟨habove, listing, hlisting⟩ := Path.forall_step_snoc.1 hlists
    have hwalks := ih habove (Search.keeps_snoc.1 hkeeps).1 (FileTree.isDirectoryAt_of_entry hentry)
    obtain ⟨-, hlocate⟩ := Search.enters_of_walks (s := f.searchOf tree dir) hnamed hplain hstart hwalks
    have hat := (FileTree.names_of_locate hlocate).symm.trans hlisting
    have hlist := (FileTree.namesAt_eq_ok_iff.1 hat).1
    exact ⟨hwalks.leads.snoc (Bool.and_eq_true_iff.2 ⟨hlist, hsearch⟩) hentry, hkeeps, hdirectory⟩

lemma walks_search (hdirectory : tree.isDirectoryAt start = true)
    (h : (f.searchOf tree dir).Enters dir names)
    (hlocate : tree.locate (Path.under dir names) = .ok place) :
    (f.searchOf tree dir).Walks Access.search dir start names place :=
  (Search.walks_of_enters (s := f.searchOf tree dir) hnamed hplain hstart hdirectory h hlocate).mono
    fun _ _ hopens => (Bool.and_eq_true_iff.1 hopens).2

lemma list_of_walks (h : (f.searchOf tree dir).Walks Access.opens dir start names place)
    (hlists : ∃ listing, tree.names (Path.under dir names) = .ok listing) :
    (tree.accessAt place).list = true := by
  obtain ⟨listing, hlisting⟩ := hlists
  obtain ⟨-, hlocate⟩ := Search.enters_of_walks (s := f.searchOf tree dir) hnamed hplain hstart h
  exact (FileTree.namesAt_eq_ok_iff.1 ((FileTree.names_of_locate hlocate).symm.trans hlisting)).1

section

variable (hsearchable : ∀ place, tree.Below start place →
    (tree.accessAt place).list = true → (tree.accessAt place).search = true)
  (hlists : ∀ names, (deep = false → names = []) → f.InScope tree Access.search dir names →
    ∃ listing, tree.names (Path.under dir names) = .ok listing)

include hsearchable hlists

lemma walks_opens_of_lists (hdepth : deep = false → names = [])
    (h : (f.searchOf tree dir).Walks grants dir start names place) :
    (f.searchOf tree dir).Walks Access.opens dir start names place := by
  obtain ⟨hleads, hkeeps, hdirectory⟩ := h
  induction hleads with
  | nil => exact ⟨.nil, hkeeps, hdirectory⟩
  | @snoc names parent n place hleads _ hentry ih =>
    cases deep with
    | false => exact absurd (hdepth rfl) (by simp)
    | true =>
      have hwalks := ih nofun (Search.keeps_snoc.1 hkeeps).1 (FileTree.isDirectoryAt_of_entry hentry)
      have hscope : f.InScope tree Access.search dir names := ⟨start, parent, hstart,
        hwalks.mono fun _ _ hopens => (Bool.and_eq_true_iff.1 hopens).2⟩
      have hlist := list_of_walks hnamed hplain hstart hwalks (hlists names nofun hscope)
      have hsearch := hsearchable parent (FileTree.below_of_leads hleads) hlist
      exact ⟨hwalks.leads.snoc (Bool.and_eq_true_iff.2 ⟨hlist, hsearch⟩) hentry, hkeeps, hdirectory⟩

lemma walks_iff_of_lists (hdepth : deep = false → names = []) :
    (f.searchOf tree dir).Walks (fun _ => true) dir start names place ↔
      (f.searchOf tree dir).Walks Access.search dir start names place :=
  ⟨fun h => (walks_opens_of_lists hnamed hplain hstart hsearchable hlists hdepth h).mono
    fun _ _ hopens => (Bool.and_eq_true_iff.1 hopens).2, Search.Walks.mono fun _ _ _ => rfl⟩

lemma inScope_iff_of_lists (hdepth : deep = false → names = []) :
    f.InScope tree (fun _ => true) dir names ↔ f.InScope tree Access.search dir names := by
  refine exists_congr fun other => exists_congr fun place => and_congr_right fun hother => ?_
  obtain rfl := Except.ok.inj (hother.symm.trans hstart)
  exact walks_iff_of_lists hnamed hplain hstart hsearchable hlists hdepth

lemma qualifies_iff_of_lists :
    f.Qualifies tree (fun _ => true) deep dir names n ↔
      f.Qualifies tree Access.search deep dir names n := by
  constructor
  · rintro ⟨hdepth, ⟨other, place, next, hother, hwalks, hentry, hfile⟩, hkept, hext⟩
    obtain rfl := Except.ok.inj (hother.symm.trans hstart)
    have hsame := (walks_iff_of_lists hnamed hplain hstart hsearchable hlists hdepth).1 hwalks
    exact ⟨hdepth, ⟨other, place, next, hother, hsame, hentry, Or.inl (hfile.resolve_right nofun)⟩,
      hkept, hext⟩
  · rintro ⟨hdepth, ⟨other, place, next, hother, hwalks, hentry, hfile⟩, hkept, hext⟩
    obtain rfl := Except.ok.inj (hother.symm.trans hstart)
    have hopens := walks_opens_of_lists hnamed hplain hstart hsearchable hlists hdepth hwalks
    have hlist := list_of_walks hnamed hplain hstart hopens
      (hlists names hdepth ⟨other, place, hother, hwalks⟩)
    have hsearch := hsearchable place (FileTree.below_of_leads hwalks.leads) hlist
    have hnext : tree.isDirectoryAt next = false := hfile.resolve_right (by simp [hsearch])
    exact ⟨hdepth, ⟨other, place, next, hother, hwalks.mono fun _ _ _ => rfl, hentry, Or.inl hnext⟩,
      hkept, hext⟩

end

lemma qualifies_iff_open (hdirectory : tree.isDirectoryAt start = true) :
    f.Qualifies tree Access.search deep dir names n ∧ f.Reaches tree dir names ↔
    f.ValidPatterns ∧ (deep = false → names = []) ∧ (f.searchOf tree dir).Enters dir names ∧
      (∃ listing, tree.names (Path.under dir names) = .ok listing ∧ n ∈ listing) ∧
      tree.isDirectory (Path.under dir (names ++ [n])) = false ∧
      f.leavesOut dir (Path.under dir (names ++ [n])) false = false ∧
      ∃ ext, f.extensions.entryFor? (Path.under dir (names ++ [n])) = some ext := by
  constructor
  · rintro ⟨h, hpatterns, hlists⟩
    obtain ⟨hsteps, listing, hlisting⟩ := Path.forall_prefix_iff.1 hlists
    obtain ⟨other, place, next, hother, hwalks, hentry, hfile⟩ := h.entry
    obtain rfl := Except.ok.inj (hother.symm.trans hstart)
    obtain ⟨henters, hlocate⟩ := Search.enters_of_walks (s := f.searchOf tree dir) hnamed hplain hstart
      (walks_opens hnamed hplain hstart hwalks hsteps)
    obtain ⟨hmem, hpath⟩ := (Search.file_iff (s := f.searchOf tree dir) hnamed hplain hlocate
      (FileTree.below_of_leads hwalks.leads) hlisting).2 ⟨next, hentry, hfile⟩
    exact ⟨hpatterns, h.depth, henters, ⟨listing, hlisting, hmem⟩, hpath, h.kept, h.extension⟩
  · rintro ⟨hpatterns, hdepth, henters, ⟨listing, hlisting, hmem⟩, hpath, hkept, hextension⟩
    obtain ⟨place, hlocate, hbelow⟩ :=
      Search.Enters.locate (s := f.searchOf tree dir) hnamed hplain hstart henters
    obtain ⟨next, hentry, hfile⟩ :=
      (Search.file_iff (s := f.searchOf tree dir) hnamed hplain hlocate hbelow hlisting).1 ⟨hmem, hpath⟩
    have hwalks := walks_search hnamed hplain hstart hdirectory henters hlocate
    refine ⟨⟨hdepth, ⟨start, place, next, hstart, hwalks, hentry, hfile⟩, hkept, hextension⟩,
      hpatterns, Path.forall_prefix_iff.2 ⟨fun above m hinit => ?_, listing, hlisting⟩⟩
    obtain ⟨names, hnames, -⟩ := (henters above m hinit).lists
    exact ⟨names, hnames⟩

lemma mem_findOn_open (hdirectory : tree.isDirectoryAt start = true) (hreaches : f.Reaches tree dir [])
    {o : Found} : o ∈ (f.findOn tree deep dir).found ↔ ∃ names n,
      o.path = Path.under dir (names ++ [n]) ∧ (deep = false → names = []) ∧
      (f.searchOf tree dir).Enters dir names ∧
      (∃ listing, tree.names (Path.under dir names) = .ok listing ∧ n ∈ listing) ∧
      tree.isDirectory o.path = false ∧ f.leavesOut dir o.path false = false ∧
      f.extensions.entryFor? o.path = some o.extension := by
  refine ⟨open_of_findOn, ?_⟩
  rintro ⟨names, n, hpath, hdepth, hopen⟩
  cases deep with
  | true =>
    rw [Search.mem_found_iff_open hnamed hplain hstart hdirectory (findOn_deep hreaches)]
    exact ⟨names, n, hpath, hopen⟩
  | false =>
    obtain ⟨hpatterns, listing, hlisting⟩ := reaches_nil.1 hreaches
    rw [(findOn_shallow hpatterns hlisting).1, Search.mem_filesOf]
    obtain rfl := hdepth rfl
    obtain ⟨-, ⟨found, hfound, hn⟩, haccepted⟩ := hopen
    obtain rfl := Except.ok.inj (hfound.symm.trans hlisting)
    exact ⟨n, hn, hpath, haccepted⟩

lemma reaches_of_complete (hdirectory : tree.isDirectoryAt start = true)
    (hcomplete : (f.findOn tree deep dir).faults = []) (hdepth : deep = false → names = [])
    (h : f.InScope tree Access.search dir names) : f.Reaches tree dir names := by
  have hroot := (FileTree.isDirectory_of_locate hstart).trans hdirectory
  have hreaches : f.Reaches tree dir [] := by
    by_contra hnot
    exact (findOn_of_not_reaches hroot hnot).2 hcomplete
  -- the way to a directory can be listed by induction, so one that cannot be would be a fault
  induction names using List.reverseRecOn with
  | nil => exact hreaches
  | append_singleton names n ih =>
    cases deep with
    | false => exact absurd (hdepth rfl) (by simp)
    | true =>
      obtain ⟨other, place, hother, hwalks⟩ := h
      obtain rfl := Except.ok.inj (hother.symm.trans hstart)
      obtain ⟨parent, hleads, -, hentry⟩ := FileTree.leads_snoc.1 hwalks.leads
      obtain ⟨hpatterns, hlists⟩ := ih nofun ⟨other, parent, hother, hleads,
        (Search.keeps_snoc.1 hwalks.keeps).1, FileTree.isDirectoryAt_of_entry hentry⟩
      have hsteps : ∀ above m, above ++ [m] <+: names ++ [n] →
          ∃ listing, tree.names (Path.under dir above) = .ok listing :=
        Path.forall_step_snoc.2 (Path.forall_prefix_iff.1 hlists)
      obtain ⟨henters, -⟩ := Search.enters_of_walks (s := f.searchOf tree dir) hnamed hplain hstart
        (walks_opens hnamed hplain hstart hwalks hsteps)
      refine ⟨hpatterns, Path.forall_prefix_iff.2 ⟨hsteps, ?_⟩⟩
      cases hnames : tree.names (Path.under dir (names ++ [n])) with
      | ok listing => exact ⟨listing, rfl⟩
      | error cause =>
        have hfault := (Search.mem_faults_iff_entered hnamed hplain hstart hdirectory
          (findOn_deep hreaches) _).2 ⟨names ++ [n], cause, by simp, rfl, henters, hnames⟩
        rw [hcomplete] at hfault
        exact absurd hfault List.not_mem_nil

lemma findOn_complete_iff (hdirectory : tree.isDirectoryAt start = true) :
    (f.findOn tree deep dir).faults = [] ↔ f.ValidPatterns ∧ ∀ names, (deep = false → names = []) →
      f.InScope tree Access.search dir names →
        ∃ listing, tree.names (Path.under dir names) = .ok listing := by
  have hself : f.InScope tree Access.search dir [] :=
    ⟨start, start, hstart, .nil, Search.keeps_nil _ dir, hdirectory⟩
  constructor
  · intro hcomplete
    refine ⟨?_, fun names hdepth h => ?_⟩
    · exact (reaches_of_complete hnamed hplain hstart hdirectory hcomplete (fun _ => rfl) hself).1
    · have hreaches := reaches_of_complete hnamed hplain hstart hdirectory hcomplete hdepth h
      exact hreaches.2 names (List.prefix_refl names)
  · rintro ⟨hpatterns, hlists⟩
    have hroot := hlists [] (fun _ => rfl) hself
    cases deep with
    | false =>
      obtain ⟨listing, hlisting⟩ := hroot
      exact (findOn_shallow hpatterns hlisting).2
    | true =>
      apply List.eq_nil_iff_forall_not_mem.2
      intro fault hfault
      obtain ⟨names, cause, -, -, henters, hcause⟩ := (Search.mem_faults_iff_entered hnamed hplain
        hstart hdirectory (findOn_deep (reaches_nil.2 ⟨hpatterns, hroot⟩)) fault).1 hfault
      obtain ⟨place, hlocate, -⟩ :=
        Search.Enters.locate (s := f.searchOf tree dir) hnamed hplain hstart henters
      have hwalks := walks_search hnamed hplain hstart hdirectory henters hlocate
      obtain ⟨listing, hlisting⟩ := hlists names nofun ⟨start, place, hstart, hwalks⟩
      exact absurd (hlisting.symm.trans hcause) nofun

end

lemma Qualifies.inScope (h : f.Qualifies tree grants deep dir names n) :
    f.InScope tree grants dir names := by
  obtain ⟨start, place, next, hstart, hwalks, -⟩ := h.entry
  exact ⟨start, place, hstart, hwalks⟩

lemma mem_findOn_iff (hnamed : tree.WellNamed) (hplain : tree.PlainUnder dir) {o : Found} :
    o ∈ (f.findOn tree deep dir).found ↔ ∃ names n, o.path = Path.under dir (names ++ [n]) ∧
      f.Qualifies tree Access.search deep dir names n ∧ f.Reaches tree dir names ∧
      f.extensions.entryFor? o.path = some o.extension := by
  by_cases hreaches : f.Reaches tree dir []
  case pos =>
    obtain ⟨start, hstart, hdirectory⟩ := FileTree.locate_of_isDirectory hreaches.isDirectory
    have hbelow := hplain start hstart hdirectory
    rw [mem_findOn_open hnamed hbelow hstart hdirectory hreaches]
    constructor
    · rintro ⟨names, n, hpath, hdepth, henters, hlists, hfile, hkept, hextension⟩
      rw [hpath] at hfile hkept
      obtain ⟨hqualifies, hnames⟩ := (qualifies_iff_open hnamed hbelow hstart hdirectory).2
        ⟨hreaches.1, hdepth, henters, hlists, hfile, hkept, _, hpath ▸ hextension⟩
      exact ⟨names, n, hpath, hqualifies, hnames, hextension⟩
    · rintro ⟨names, n, hpath, hqualifies, hnames, hextension⟩
      obtain ⟨-, hdepth, henters, hlists, hfile, hkept, -⟩ :=
        (qualifies_iff_open hnamed hbelow hstart hdirectory).1 ⟨hqualifies, hnames⟩
      rw [← hpath] at hfile hkept
      exact ⟨names, n, hpath, hdepth, henters, hlists, hfile, hkept, hextension⟩
  case neg =>
    rw [found_of_not_reaches hreaches]
    constructor
    · exact fun h => absurd h List.not_mem_nil
    · rintro ⟨names, n, -, -, h, -⟩
      exact absurd h.start hreaches

end Finder

end LexRules
