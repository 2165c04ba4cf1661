import LexRules.Proofs.Command.Status

/-! What is listed for the search paths of a project, however they overlap and whatever fails on one of
them: each file once, in order, and every fault. Files with different paths are printed as different
texts, as far as their paths are UTF-8. -/

namespace LexRules

def Context.foundLines (c : Context) (found : List Found) : OutputFormat → List Text
  | .json => [Text.array (found.map fun f => Text.object [Text.member "extension" (Text.quoted f.extension),
      Text.member "path" (Text.quoted (Path.shownFrom c.root f.path))])]
  | .text =>
    if found = [] then ["No definition files found.".toList]
    else found.map fun f => Path.shownFrom c.root f.path

namespace Report

def discoverFinder (settings : Settings) (extensions : List Text) : Finder :=
  if extensions = [] then .ofSettings settings else ⟨Extensions.ofList extensions, settings.exclude⟩

lemma foundJson_eq (c : Context) (f : Found) :
    Text.jsonObject [("extension", Text.quoted f.extension), ("path", Text.quoted (c.shown f.path))] =
      Text.object [Text.member "extension" (Text.quoted f.extension),
        Text.member "path" (Text.quoted (Path.shownFrom c.root f.path))] := by
  simp only [Text.jsonObject, List.map_cons, List.map_nil, Text.joinWith_eq_intercalate]
  rw [Text.jsonField_eq rfl, Text.jsonField_eq rfl]
  rfl

lemma discover_of_settings {c : Context} {settings : Settings} (h : c.settings = .ok settings)
    (deep : Bool) (extensions : List Text) (format : OutputFormat) {d : Findings}
    (hd : (discoverFinder settings extensions).findAll c.tree (deep || settings.deep)
      (settings.searchPaths c.root) = d) :
    discover c deep extensions format = .ok ⟨c.foundLines d.found format, d.faults.map c.complaint,
      d.isComplete, c.settingsNotes ++ d.notes⟩ := by
  rw [discover, h, ← hd, Context.foundLines.eq_def, ← Context.faultLines_eq]
  cases format with
  | json =>
    simp only [Text.jsonArray_eq, funext (foundJson_eq c)]
    rfl
  | text => rfl

end Report

namespace Environment

variable {e : Environment} {i : Invocation} {deep : Bool} {extensions : List Text}
  {format : OutputFormat} {settings : Settings}

lemma run_discover (hargs : Arguments.read e.args = .ok i)
    (hcommand : i.command = some (.discover deep extensions format))
    (hsettings : (e.context i).settings = .ok settings) {d : Findings}
    (hd : (Report.discoverFinder settings extensions).findAll e.tree (deep || settings.deep)
      (settings.searchPaths (e.context i).root) = d) :
    e.run = ⟨if d.isComplete then 0 else 1, Text.written ((e.context i).foundLines d.found format),
      Text.written (d.faults.map (e.context i).complaint), none,
      e.log i.verbose ((e.context i).settingsNotes ++ d.notes)⟩ :=
  run_of_report hargs hcommand (Report.discover_of_settings hsettings deep extensions format hd)

end Environment

structure Finder.Merges (f : Finder) (tree : FileTree) (deep : Bool) (root : Path) (s : Settings)
    (d : Findings) : Prop where
  increasing : d.found.Pairwise fun o p => Path.precedes o.path p.path = true
  distinct : d.found.Pairwise fun o p => Path.same o.path p.path = false
  drawn : ∀ o ∈ d.found, ∃ dir ∈ s.searchPaths root, ∃ e, f.find tree deep dir = .ok e ∧ o ∈ e.found
  kept : ∀ dir ∈ s.searchPaths root, ∀ e, f.find tree deep dir = .ok e →
    ∀ o ∈ e.found, ∃ p ∈ d.found, p.same o = true
  faults : d.faults = (s.searchPaths root).flatMap fun dir => Findings.faultsOf (f.find tree deep dir)
  reordered : ∀ t : Settings, s.paths.Perm t.paths → List.Forall₂ (fun o p => o.same p = true) d.found
    (f.findAll tree deep (t.searchPaths root)).found
  seen : (d.found.map fun o => Path.seenFrom root o.path).Nodup
  shown : d.found.Pairwise fun o p => ∀ s t, Text.decodeUtf8 (Path.seenFrom root o.path) = some s →
    Text.decodeUtf8 (Path.seenFrom root p.path) = some t →
      Path.shownFrom root o.path ≠ Path.shownFrom root p.path

namespace Settings

variable {s t : Settings} {root dir : Path}

lemma within_of_searchPaths (h : dir ∈ s.searchPaths root) : Path.Within root dir := by
  obtain ⟨path, -, rfl⟩ := List.mem_map.1 h
  exact (Path.Within.refl root).join _

end Settings

lemma Finder.merges_findAll (f : Finder) (tree : FileTree) (deep : Bool) (root : Path) (s : Settings) :
    f.Merges tree deep root s (f.findAll tree deep (s.searchPaths root)) := by
  have harranged := arranged_findAll f tree deep (s.searchPaths root)
  have hmatches := matches_of_findAll f tree deep (s.searchPaths root)
  have hseen : ((f.findAll tree deep (s.searchPaths root)).found.map fun o =>
      Path.seenFrom root o.path).Nodup :=
    seen_nodup fun dir hdir => Settings.within_of_searchPaths hdir
  constructor
  case increasing => exact harranged.increasing.imp Path.precedes_iff.2
  case distinct =>
    apply harranged.increasing.imp
    intro o p hlt
    rw [← Bool.not_eq_true, Path.same_iff]
    exact hlt.ne
  case drawn =>
    intro o ho
    obtain ⟨dir, hdir, ho⟩ := List.mem_flatMap.1 (harranged.found_of_mem o ho)
    exact ⟨dir, hdir, mem_findOn.1 ho⟩
  case kept =>
    intro dir hdir e he o ho
    have hmem : o ∈ (s.searchPaths root).flatMap fun dir => (f.findOn tree deep dir).found :=
      List.mem_flatMap.2 ⟨dir, hdir, mem_findOn.2 ⟨e, he, ho⟩⟩
    obtain ⟨p, hp, hkey⟩ := harranged.keeps o hmem
    exact ⟨p, hp, Found.same_of_key (hmatches p (harranged.found_of_mem p hp)) (hmatches o hmem) hkey⟩
  case faults =>
    rw [faults_findAll]
    simp only [faults_findOn]
  case reordered => exact fun t hperm => findAll_perm (hperm.map _)
  case seen => exact hseen
  case shown =>
    exact (List.pairwise_map.1 hseen).imp fun hne s t hs ht hshown =>
      hne (Path.seen_eq_of_shown hs ht hshown)

structure FileTree.ListsOnce (tree : FileTree) : Prop where
  merges : ∀ (f : Finder) deep root s, f.Merges tree deep root s (f.findAll tree deep (s.searchPaths root))
  prints : ∀ (e : Environment) i deep extensions format settings, e.tree = tree →
    Arguments.read e.args = .ok i → i.command = some (.discover deep extensions format) →
    (e.context i).settings = .ok settings →
      ∃ d, (Report.discoverFinder settings extensions).Merges tree (deep || settings.deep)
          (e.context i).root settings d ∧
        e.run.stdout = Text.written ((e.context i).foundLines d.found format) ∧
        e.run.stderr = Text.written (d.faults.map (e.context i).complaint)
  lines : ∀ (e : Environment) i deep extensions settings d, e.tree = tree →
    Arguments.read e.args = .ok i → i.command = some (.discover deep extensions .text) →
    (e.context i).settings = .ok settings →
    (Report.discoverFinder settings extensions).findAll tree (deep || settings.deep)
        (settings.searchPaths (e.context i).root) = d → d.found ≠ [] →
    (∀ o ∈ d.found, '\n' ∉ Path.shownFrom (e.context i).root o.path) →
      Text.splitOn '\n' e.run.stdout =
        (d.found.map fun o => Path.shownFrom (e.context i).root o.path) ++ [[]]

theorem FileTree.lists_once (tree : FileTree) : tree.ListsOnce := by
  constructor
  case merges => exact fun f deep root s => f.merges_findAll tree deep root s
  case prints =>
    rintro e i deep extensions format settings rfl hargs hcommand hsettings
    refine ⟨_, Finder.merges_findAll _ e.tree _ _ settings, ?_⟩
    rw [Environment.run_discover hargs hcommand hsettings rfl]
    exact ⟨rfl, rfl⟩
  case lines =>
    rintro e i deep extensions settings d rfl hargs hcommand hsettings hd hne hlines
    rw [Environment.run_discover hargs hcommand hsettings hd]
    simp only [Context.foundLines, if_neg hne]
    exact Text.splitOn_written (List.forall_mem_map.2 hlines)

example : ((Finder.ofSettings .default).findAll
    ⟨#[.directory 0 [(Path.of "lexf", 1)] .full, .directory 0 [(Path.of "a.lex", 2)] .full, .file [] false],
      0, 40⟩ false [Path.of "/lexf//", Path.of "/./lexf"]).found =
    [⟨Path.of "/lexf//a.lex", "lex".toList⟩] := by cbv

namespace FileTree

def listing (tree : FileTree) : Environment where
  args := ["discover".toList, "--deep".toList]
  tree := tree
  home := Path.of "/"
  stdin := []
  noColor := false
  logFilter := none

lemma stdout_listing {tree : FileTree} {found : List Found}
    (hsettings : Settings.file? tree (Path.of "/") = none)
    (hfound : ((Finder.ofSettings .default).findAll tree true [Path.of "/lexf"]).found = found)
    (hne : found ≠ []) :
    tree.listing.run.stdout = Text.written (found.map fun o => Path.shownFrom (Path.of "/") o.path) := by
  have hargs : Arguments.read tree.listing.args =
      .ok ⟨some (.discover true [] .text), none, false, false⟩ := rfl
  have hloaded : (tree.listing.context ⟨some (.discover true [] .text), none, false, false⟩).settings =
      .ok .default := Environment.settings_of_no_file hsettings
  have hfound' : ((Report.discoverFinder .default []).findAll tree.listing.tree true
      (Settings.default.searchPaths (tree.listing.context
        ⟨some (.discover true [] .text), none, false, false⟩).root)).found = found := hfound
  rw [Environment.run_discover hargs rfl hloaded rfl, Bool.true_or, hfound']
  simp only [Context.foundLines, if_neg hne]
  rfl

/-- Two files whose names are no UTF-8. -/
def twins : FileTree :=
  ⟨#[.directory 0 [(Path.of "lexf", 1)] .full,
    .directory 0 [(0xFF :: Path.of ".lex", 2), (0xFE :: Path.of ".lex", 2)] .full, .file [] false], 0, 40⟩

/-- A file below a directory whose name breaks a line. -/
def broken : FileTree :=
  ⟨#[.directory 0 [(Path.of "lexf", 1)] .full,
    .directory 0 [(Path.of "a.lex", 2), (Path.of "b.lex\nlexf", 3)] .full, .file [] false,
    .directory 1 [(Path.of "a.lex", 2)] .full], 0, 40⟩

theorem lists_twice :
    (∃ d, (Finder.ofSettings .default).Merges twins true (Path.of "/") .default d ∧
      ¬ (d.found.map fun o => Path.shownFrom (Path.of "/") o.path).Nodup) ∧
    twins.listing.run.stdout = "lexf/\uFFFD.lex\nlexf/\uFFFD.lex\n".toList ∧
    broken.listing.run.stdout = "lexf/a.lex\nlexf/b.lex\nlexf/a.lex\n".toList := by
  have htwins : ((Finder.ofSettings .default).findAll twins true [Path.of "/lexf"]).found =
      [⟨Path.of "/lexf/" ++ 0xFE :: Path.of ".lex", "lex".toList⟩,
        ⟨Path.of "/lexf/" ++ 0xFF :: Path.of ".lex", "lex".toList⟩] := by cbv
  have hbroken : ((Finder.ofSettings .default).findAll broken true [Path.of "/lexf"]).found =
      [⟨Path.of "/lexf/a.lex", "lex".toList⟩, ⟨Path.of "/lexf/b.lex\nlexf/a.lex", "lex".toList⟩] := by cbv
  refine ⟨⟨_, Finder.merges_findAll _ twins true _ .default, ?_⟩, ?_, ?_⟩
  · rw [show Settings.default.searchPaths (Path.of "/") = [Path.of "/lexf"] from rfl, htwins]
    intro hnodup
    exact (List.nodup_cons.1 hnodup).1 (List.mem_singleton.2 (by cbv))
  · rw [stdout_listing (by cbv) htwins (List.cons_ne_nil _ _)]
    cbv
  · rw [stdout_listing (by cbv) hbroken (List.cons_ne_nil _ _)]
    cbv

end FileTree

end LexRules
