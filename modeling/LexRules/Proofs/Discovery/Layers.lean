import LexRules.Proofs.Discovery.Findings

/-! A shallow search beside a deep one from the same directory. The first turn of the queue lists
that directory, and all turns behind it are spent on directories further down. -/

namespace LexRules

namespace Search

variable {s : Search} {root : Path} {names : List Name} {d : Findings}

lemma shallow_error_iff (hroot : s.tree.isDirectory root = true) (fault : Fault) :
    s.shallow root = .error fault ↔ s.deep root = .error fault := by
  rw [shallow, deep_eq hroot]
  cases s.tree.names root with
  | error cause => rfl
  | ok names => exact iff_of_false nofun nofun

lemma shallow_eq_ok (h : s.shallow root = .ok d) :
    ∃ names, s.tree.names root = .ok names ∧ d.found = s.filesOf (Path.entries root names) := by
  rw [shallow] at h
  cases hnames : s.tree.names root with
  | error cause =>
    rw [hnames] at h
    exact absurd h nofun
  | ok names =>
    rw [hnames] at h
    obtain rfl := Except.ok.inj h
    exact ⟨names, rfl, rfl⟩

section WellNamed

variable (hnamed : s.tree.WellNamed)

include hnamed

lemma history_eq_cons (hroot : s.tree.isDirectory root = true) (hnames : s.tree.names root = .ok names) :
    ∃ place later, s.history root = .listed root place names :: later ∧
      ∀ v ∈ later, v.Reports s.tree ∧ Path.depth root + 1 ≤ Path.depth v.dir := by
  obtain ⟨place, hlocate, -⟩ := FileTree.locate_of_isDirectory hroot
  rw [FileTree.names_of_locate hlocate] at hnames
  have hchildren : ∀ child ∈ s.next (.listed root place names),
      Path.depth root + 1 ≤ Path.depth child := fun child hchild =>
    Nat.le_of_eq (depth_next hnamed (v := .listed root place names) ⟨hlocate, hnames⟩ hchild).symm
  have hcons : s.history root = .listed root place names ::
      s.visits ((List.range s.tree.nodes.size).erase place) (s.next (.listed root place names)) := by
    rw [history, visits_cons, turn_eq_of_names hroot hlocate, hnames]
    rfl
  exact ⟨place, _, hcons, fun v hv => ⟨visits_reports hv, depth_visits hnamed _ _ _ hchildren v hv⟩⟩

lemma deep_of_shallow (hroot : s.tree.isDirectory root = true) (h : s.shallow root = .ok d) :
    ∃ e deeper, s.deep root = .ok e ∧ e.found = d.found ++ deeper ∧
      ∀ o ∈ deeper, Path.depth root + 2 ≤ Path.depth o.path := by
  obtain ⟨names, hnames, hfound⟩ := shallow_eq_ok h
  obtain ⟨e, he⟩ := exists_deep hroot hnames
  obtain ⟨place, later, hhistory, hlater⟩ := history_eq_cons hnamed hroot hnames
  refine ⟨e, later.flatMap fun v => (s.gain v).found, he, ?_, fun o ho => ?_⟩
  · rw [(deep_eq_ok he).1, hhistory, List.flatMap_cons, hfound]
    rfl
  · obtain ⟨v, hv, ho⟩ := List.mem_flatMap.1 ho
    obtain ⟨hreports, hdepth⟩ := hlater v hv
    rw [depth_of_gain hnamed hreports o ho]
    exact Nat.succ_le_succ hdepth

end WellNamed

end Search

namespace Finder

variable {f : Finder} {tree : FileTree} {root : Path}

lemma shallow_error_iff_deep (f : Finder) (tree : FileTree) (root : Path) (fault : Fault) :
    f.shallow tree root = .error fault ↔ f.deep tree root = .error fault := by
  rw [shallow, deep]
  split
  · simp
  · rename_i hroot
    cases hsearch : f.search tree root with
    | error cause => rfl
    | ok s =>
      obtain rfl := tree_of_search hsearch
      exact Search.shallow_error_iff (by simpa using hroot) fault

theorem deep_layers (f : Finder) (tree : FileTree) (root : Path) (hnamed : tree.WellNamed) :
    (∀ fault, f.shallow tree root = .error fault ↔ f.deep tree root = .error fault) ∧
    ∀ d, f.shallow tree root = .ok d → ∃ e deeper, f.deep tree root = .ok e ∧
      e.found = d.found ++ deeper ∧ ∀ o ∈ deeper, Path.depth root + 2 ≤ Path.depth o.path := by
  refine ⟨f.shallow_error_iff_deep tree root, fun d h => ?_⟩
  rw [shallow] at h
  rw [deep]
  split at h
  · rename_i hroot
    obtain rfl := Except.ok.inj h
    rw [if_pos hroot]
    exact ⟨_, [], rfl, rfl, List.forall_mem_nil _⟩
  · rename_i hroot
    rw [Bool.not_eq_true', Bool.not_eq_false] at hroot
    cases hsearch : f.search tree root with
    | error fault =>
      rw [hsearch] at h
      cases h
    | ok s =>
      rw [hsearch] at h
      obtain rfl := tree_of_search hsearch
      rw [if_neg (by simp [hroot])]
      exact Search.deep_of_shallow hnamed hroot h

/-- A directory with a link back up, and one that cannot be listed, beside a file. -/
def looping : FileTree where
  nodes := #[.directory 0 [(Path.of "sub", 1), (Path.of "a.x", 2), (Path.of "shut", 4)] .full,
    .directory 0 [(Path.of "up", 3), (Path.of "b.x", 2)] .full, .file [] false, .link (Path.of ".."),
    .directory 0 [] .shut]
  current := 0
  linkLimit := 40

theorem deep_layers_looping : looping.WellNamed ∧
    ∃ e deeper, deep ⟨⟨["x".toList]⟩, []⟩ looping (Path.of "/") = .ok e ∧
      e.found = [⟨Path.of "/a.x", "x".toList⟩] ++ deeper ∧
      ∀ o ∈ deeper, Path.depth (Path.of "/") + 2 ≤ Path.depth o.path := by
  have hnamed : looping.WellNamed := by decide
  have hshallow : shallow ⟨⟨["x".toList]⟩, []⟩ looping (Path.of "/") =
      .ok ⟨[⟨Path.of "/a.x", "x".toList⟩], [], [.shallowFinished (Path.of "/") 1]⟩ := rfl
  exact ⟨hnamed, (deep_layers _ looping (Path.of "/") hnamed).2 _ hshallow⟩

end Finder

end LexRules
