import LexRules.Proofs.Discovery.Findings
import LexRules.Proofs.FileTree.Chains

/-! Deep searches along symbolic links. Directories are the nodes of a graph, and names lead from
one to another; a search visits what can be reached there, each directory once and by a shortest
path. -/

namespace LexRules

namespace FileTree

def Lists (tree : FileTree) (place : Nat) (n : Name) : Prop :=
  ∃ names, tree.namesAt place = .ok names ∧ n ∈ names

/-- A name that leads from the directory at one place to the directory at another. What is left out
is told by names. -/
structure Edge (tree : FileTree) (left : Name → Bool → Bool) (place : Nat) (n : Name) (next : Nat) :
    Prop where
  lists : tree.Lists place n
  resolves : tree.resolve place n = .ok next
  isDirectory : tree.isDirectoryAt next = true
  kept : left n true = false

inductive Route (tree : FileTree) (left : Name → Bool → Bool) (start : Nat) : List Name → Nat → Prop
  | nil : Route tree left start [] start
  | snoc {names : List Name} {place : Nat} {n : Name} {next : Nat} :
      Route tree left start names place → Edge tree left place n next →
        Route tree left start (names ++ [n]) next

def ListsFile (tree : FileTree) (place : Nat) (n : Name) : Prop :=
  tree.Lists place n ∧ ∀ next, tree.resolve place n = .ok next → tree.isDirectoryAt next = false

variable {tree : FileTree} {left : Name → Bool → Bool} {start place : Nat} {names : List Name}

/-- Every name leads wherever the links behind it do, however many of them there are on the way. -/
def Follows (tree : FileTree) : Prop :=
  ∀ place n next, tree.resolve place n = .ok next ↔ ∃ depth, tree.step depth place n = .ok next

lemma Lists.isName {n : Name} (hnamed : tree.WellNamed) (h : tree.Lists place n) : Path.IsName n := by
  obtain ⟨names, hnames, hn⟩ := h
  exact (hnamed.listing hnames).2 n hn

lemma Route.isName (hnamed : tree.WellNamed) (h : tree.Route left start names place) :
    ∀ n ∈ names, Path.IsName n := by
  induction h with
  | nil => exact nofun
  | snoc _ hedge ih =>
    intro m hm
    rcases List.mem_append.1 hm with hm | hm
    · exact ih m hm
    · rw [List.mem_singleton.1 hm]
      exact hedge.lists.isName hnamed

end FileTree

namespace Search

/-- Below `root`, only the name of an entry, and whether it is a directory, tells whether it is left
out. -/
def ByName (s : Search) (root : Path) (left : Name → Bool → Bool) : Prop :=
  ∀ above n isDirectory, (∀ m ∈ above ++ [n], Path.IsName m) →
    s.excludes (Path.under root (above ++ [n])) isDirectory = left n isDirectory

structure Survey (s : Search) (root : Path) (left : Name → Bool → Bool) (start : Nat)
    (d : Findings) : Prop where
  slots_nodup : (d.found.map fun o => s.tree.slot? o.path).Nodup
  slots_iff : ∀ slot, slot ∈ (d.found.map fun o => s.tree.slot? o.path) ↔
    ∃ names place n, slot = some (place, n) ∧ s.tree.Route left start names place ∧
      s.tree.ListsFile place n ∧ left n false = false ∧
      (s.finder.extensions.entryFor? n).isSome = true
  /-- They are found at the end of a route that no other route to their directory is shorter than. -/
  shortest : ∀ o ∈ d.found, ∃ names place n, o.path = Path.under root (names ++ [n]) ∧
    s.tree.slot? o.path = some (place, n) ∧ s.tree.Route left start names place ∧
    s.finder.extensions.entryFor? n = some o.extension ∧
    ∀ others, s.tree.Route left start others place →
      Path.depth o.path ≤ Path.depth (Path.under root (others ++ [n]))
  refusals_nodup : (d.faults.map s.tree.refusal?).Nodup
  refusals_iff : ∀ refusal, refusal ∈ d.faults.map s.tree.refusal? ↔
    ∃ names place cause, refusal = some (place, cause) ∧ s.tree.Route left start names place ∧
      s.tree.namesAt place = .error cause

variable {s : Search} {root : Path} {left : Name → Bool → Bool} {start place : Nat}
  {names : List Name} {v : Visit}

lemma excludes_join (hnamed : s.tree.WellNamed) (hleft : s.ByName root left)
    (hroute : s.tree.Route left start names place) {n : Name} (hlists : s.tree.Lists place n)
    (isDirectory : Bool) :
    s.excludes (Path.join (Path.under root names) n) isDirectory = left n isDirectory := by
  rw [← Path.under_append]
  refine hleft names n isDirectory fun m hm => ?_
  rcases List.mem_append.1 hm with hm | hm
  · exact hroute.isName hnamed m hm
  · exact List.mem_singleton.1 hm ▸ hlists.isName hnamed

section

variable (hnamed : s.tree.WellNamed) (hleft : s.ByName root left)
  (hstart : s.tree.locate root = .ok start)

include hnamed hleft hstart

lemma route_of_visit (hv : v ∈ s.history root) :
    ∃ names place, v.dir = Path.under root names ∧ s.tree.Route left start names place ∧
      s.tree.locate v.dir = .ok place := by
  refine (history_forall (P := fun dir => ∃ names place, dir = Path.under root names ∧
    s.tree.Route left start names place ∧ s.tree.locate dir = .ok place) ?_ ?_ v hv).2
  · rintro v hreports ⟨names, place, hdir, hroute, hlocate⟩ child hchild
    obtain ⟨other, listing, n, heq, hn, rfl, hdirectory, hkept⟩ := mem_next.1 hchild
    rw [heq] at hreports
    obtain rfl := Except.ok.inj (hlocate.symm.trans hreports.1)
    have hlists : s.tree.Lists place n := ⟨listing, hreports.2, hn⟩
    obtain ⟨next, hnext, hplace⟩ := FileTree.locate_of_isDirectory hdirectory
    have hresolves := (FileTree.locate_join (hlists.isName hnamed) hlocate).symm.trans hnext
    rw [hdir, excludes_join hnamed hleft hroute hlists] at hkept
    refine ⟨names ++ [n], next, ?_, hroute.snoc ⟨hlists, hresolves, hplace, hkept⟩, hnext⟩
    rw [Path.under_append, hdir]
  · exact ⟨[], start, rfl, .nil, hstart⟩

lemma route_of_place (hv : v ∈ s.history root) (hplace : v.place? = some place) :
    ∃ names, v.dir = Path.under root names ∧ s.tree.Route left start names place := by
  obtain ⟨names, other, hdir, hroute, hlocate⟩ := route_of_visit hnamed hleft hstart hv
  have hsame := hlocate.symm.trans ((history_reports hv).locate hplace)
  exact ⟨names, hdir, Except.ok.inj hsame ▸ hroute⟩

lemma visit_of_route (hdirectory : s.tree.isDirectoryAt start = true)
    (hroute : s.tree.Route left start names place) :
    ∃ v ∈ s.history root, v.place? = some place ∧
      Path.depth v.dir ≤ Path.depth (Path.under root names) := by
  induction hroute with
  | nil => exact history_root hnamed hstart hdirectory
  | @snoc names place n next hroute hedge ih =>
    obtain ⟨v, hv, hplace, hdepth⟩ := ih
    obtain ⟨listing, hlisting, hn⟩ := hedge.lists
    have hname := hedge.lists.isName hnamed
    have hreports := history_reports hv
    have hlocate : s.tree.locate (Path.join v.dir n) = .ok next :=
      (FileTree.locate_join hname (hreports.locate hplace)).trans hedge.resolves
    -- The visit was made along a route of its own; by name, that makes no difference to `n`.
    obtain ⟨others, hdir, hother⟩ := route_of_place hnamed hleft hstart hv hplace
    have hkept : s.excludes (Path.join v.dir n) true = false := by
      rw [hdir, excludes_join hnamed hleft hother hedge.lists]
      exact hedge.kept
    have hchild : Path.join v.dir n ∈ s.next v := by
      refine mem_next.2 ⟨place, listing, n, hreports.eq_listed hplace hlisting, hn, rfl, ?_, hkept⟩
      rw [FileTree.isDirectory_of_locate hlocate]
      exact hedge.isDirectory
    obtain ⟨w, hw, hnext, hle⟩ := history_next hnamed hv hchild hlocate
    refine ⟨w, hw, hnext, Nat.le_trans hle ?_⟩
    rw [Path.under_append, Path.depth_join _ hname, Path.depth_join _ hname]
    exact Nat.succ_le_succ hdepth

lemma depth_le_of_route (hdirectory : s.tree.isDirectoryAt start = true)
    (hv : v ∈ s.history root) (hplace : v.place? = some place)
    (hroute : s.tree.Route left start names place) :
    Path.depth v.dir ≤ Path.depth (Path.under root names) := by
  obtain ⟨w, hw, hagain, hdepth⟩ := visit_of_route hnamed hleft hstart hdirectory hroute
  rwa [history_unique hv hw hplace hagain]

lemma route_of_found {d : Findings} (hdeep : s.deep root = .ok d) {o : Found} (ho : o ∈ d.found) :
    ∃ v ∈ s.history root, ∃ names place n, v.place? = some place ∧ v.dir = Path.under root names ∧
      s.tree.Route left start names place ∧ o.path = Path.join v.dir n ∧
      s.tree.slot? o.path = some (place, n) ∧ s.tree.ListsFile place n ∧ left n false = false ∧
      s.finder.extensions.entryFor? n = some o.extension := by
  obtain ⟨dir, place, listing, hv, hmem⟩ := (mem_found hdeep).1 ho
  obtain ⟨n, hn, hpath, hfile, hkept, hextension⟩ := mem_filesOf.1 hmem
  obtain ⟨names, hdir, hroute⟩ := route_of_place hnamed hleft hstart hv rfl
  have hreports := history_reports hv
  have hlists : s.tree.Lists place n := ⟨listing, hreports.2, hn⟩
  have hname := hlists.isName hnamed
  change dir = Path.under root names at hdir
  refine ⟨_, hv, names, place, n, rfl, hdir, hroute, hpath, ?_, ⟨hlists, ?_⟩, ?_, ?_⟩
  · rw [hpath]
    exact slot_of_listed hnamed hv hn
  · rw [hpath] at hfile
    exact (FileTree.isDirectory_join_eq_false hname hreports.1).1 hfile
  · rwa [hpath, hdir, excludes_join hnamed hleft hroute hlists] at hkept
  · rwa [hpath, Path.entryFor_join _ _ hname] at hextension

lemma found_of_route {d : Findings} (hdeep : s.deep root = .ok d)
    (hdirectory : s.tree.isDirectoryAt start = true) {n : Name} {extension : Text}
    (hroute : s.tree.Route left start names place) (hfile : s.tree.ListsFile place n)
    (hkept : left n false = false) (hextension : s.finder.extensions.entryFor? n = some extension) :
    ∃ o ∈ d.found, s.tree.slot? o.path = some (place, n) := by
  obtain ⟨hlists, hnowhere⟩ := hfile
  have hname := hlists.isName hnamed
  obtain ⟨v, hv, hplace, -⟩ := visit_of_route hnamed hleft hstart hdirectory hroute
  obtain ⟨others, hdir, hother⟩ := route_of_place hnamed hleft hstart hv hplace
  have hreports := history_reports hv
  obtain ⟨listing, hlisting, hn⟩ := id hlists
  have hlisted : .listed v.dir place listing ∈ s.history root :=
    hreports.eq_listed hplace hlisting ▸ hv
  have hmem : ⟨Path.join v.dir n, extension⟩ ∈ s.filesOf (Path.entries v.dir listing) := by
    refine mem_filesOf.2 ⟨n, hn, rfl, ?_, ?_, ?_⟩
    · exact (FileTree.isDirectory_join_eq_false hname (hreports.locate hplace)).2 hnowhere
    · rw [hdir, excludes_join hnamed hleft hother hlists]
      exact hkept
    · rw [Path.entryFor_join _ _ hname]
      exact hextension
  exact ⟨_, (mem_found hdeep).2 ⟨v.dir, place, listing, hlisted, hmem⟩,
    slot_of_listed hnamed hlisted hn⟩

lemma survey_of_deep {d : Findings} (hdeep : s.deep root = .ok d)
    (hdirectory : s.tree.isDirectoryAt start = true) : s.Survey root left start d := by
  have hroot : s.tree.isDirectory root = true := by
    rw [FileTree.isDirectory_of_locate hstart]
    exact hdirectory
  constructor
  case slots_nodup => exact found_slots_nodup hnamed hdeep
  case slots_iff =>
    intro slot
    rw [List.mem_map]
    constructor
    · rintro ⟨o, ho, rfl⟩
      obtain ⟨v, -, names, place, n, -, -, hroute, -, hslot, hfile, hkept, hextension⟩ :=
        route_of_found hnamed hleft hstart hdeep ho
      exact ⟨names, place, n, hslot, hroute, hfile, hkept, Option.isSome_of_eq_some hextension⟩
    · rintro ⟨names, place, n, rfl, hroute, hfile, hkept, hsome⟩
      obtain ⟨extension, hextension⟩ := Option.isSome_iff_exists.1 hsome
      exact found_of_route hnamed hleft hstart hdeep hdirectory hroute hfile hkept hextension
  case shortest =>
    intro o ho
    obtain ⟨v, hv, names, place, n, hplace, hdir, hroute, hpath, hslot, hfile, -, hextension⟩ :=
      route_of_found hnamed hleft hstart hdeep ho
    have hname := hfile.1.isName hnamed
    refine ⟨names, place, n, ?_, hslot, hroute, hextension, fun others hother => ?_⟩
    · rw [hpath, hdir, Path.under_append]
    · rw [hpath, Path.under_append, Path.depth_join _ hname, Path.depth_join _ hname]
      exact Nat.succ_le_succ (depth_le_of_route hnamed hleft hstart hdirectory hv hplace hother)
  case refusals_nodup => exact faults_nodup hroot hdeep
  case refusals_iff =>
    intro refusal
    rw [List.mem_map]
    constructor
    · rintro ⟨fault, hfault, rfl⟩
      obtain ⟨dir, place, cause, hv, rfl⟩ := (mem_faults hroot hdeep).1 hfault
      obtain ⟨names, -, hroute⟩ := route_of_place hnamed hleft hstart hv rfl
      exact ⟨names, place, cause, refusal_of_refused hv, hroute, (history_reports hv).2⟩
    · rintro ⟨names, place, cause, rfl, hroute, hcause⟩
      obtain ⟨v, hv, hplace, -⟩ := visit_of_route hnamed hleft hstart hdirectory hroute
      have hrefused : .refused v.dir place cause ∈ s.history root :=
        (history_reports hv).eq_refused hplace hcause ▸ hv
      exact ⟨_, (mem_faults hroot hdeep).2 ⟨v.dir, place, cause, hrefused, rfl⟩,
        refusal_of_refused hrefused⟩

end

theorem deep_surveys_links (s : Search) (root : Path) (left : Name → Bool → Bool) (d : Findings)
    (hnamed : s.tree.WellNamed) (hleft : s.ByName root left)
    (hroot : s.tree.isDirectory root = true) (hdeep : s.deep root = .ok d) :
    ∃ start, s.tree.locate root = .ok start ∧ s.Survey root left start d ∧
      (s.tree.linkEntries.length ≤ s.tree.linkLimit → s.tree.Follows) ∧
      ∀ f : Finder, f.search s.tree root = .ok s → f.deep s.tree root = .ok d := by
  obtain ⟨start, hstart, hdirectory⟩ := FileTree.locate_of_isDirectory hroot
  refine ⟨start, hstart, survey_of_deep hnamed hleft hstart hdeep hdirectory, fun hlimit => ?_,
    fun f hsearch => (deep_of_search hroot hsearch).trans hdeep⟩
  exact fun place n next => ⟨fun h => ⟨_, h⟩, fun ⟨_, h⟩ => FileTree.resolve_of_step hlimit h⟩

/-- A directory that is entered under two names, with a link back up, an entry to leave out and a
directory that cannot be listed. -/
def looped : Search where
  tree := ⟨#[.directory 0 [(Path.of "sub", 1), (Path.of "again", 3), (Path.of "skip", 5)] .full,
    .directory 0 [(Path.of "a.x", 2), (Path.of "up", 4), (Path.of "shut", 6)] .full,
    .file [] false, .link (Path.of "sub"), .link (Path.of ".."),
    .directory 0 [(Path.of "b.x", 2)] .full, .directory 1 [] .shut], 0, 40⟩
  finder := ⟨⟨["x".toList]⟩, []⟩
  excludes path _ := Path.fileName? path == some (Path.of "skip")

theorem deep_surveys_looped : ∃ d, looped.deep (Path.of "/") = .ok d ∧
    ∃ start, looped.tree.locate (Path.of "/") = .ok start ∧
      looped.Survey (Path.of "/") (fun n _ => n == Path.of "skip") start d ∧ looped.tree.Follows := by
  have hnamed : looped.tree.WellNamed := by decide
  have hleft : looped.ByName (Path.of "/") fun n _ => n == Path.of "skip" := by
    intro above n isDirectory hnames
    have hname := hnames n (List.mem_append_right above List.mem_cons_self)
    rw [Path.under_append]
    simp [looped, Path.fileName_join _ hname]
  have hroot : looped.tree.isDirectory (Path.of "/") = true := by decide
  have hlimit : looped.tree.linkEntries.length ≤ looped.tree.linkLimit := by decide
  obtain ⟨d, hdeep⟩ := exists_deep hroot rfl
  obtain ⟨start, hstart, hsurvey, hfollows, -⟩ :=
    deep_surveys_links looped (Path.of "/") _ d hnamed hleft hroot hdeep
  exact ⟨d, hdeep, start, hstart, hsurvey, hfollows hlimit⟩

end Search

end LexRules
