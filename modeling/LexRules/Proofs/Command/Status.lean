import LexRules.Proofs.Command.Printing
import LexRules.Proofs.Discovery.Merging
import LexRules.Proofs.FileTree.Spelling
import LexRules.Proofs.Rule.File
import Mathlib

/-! What the exit code says about a project whose definition files are parsed. It is 0 only where
every search path could be searched to the end and every file in its scope is flawless, and whatever
it is, each file that was reached is reported once. -/

namespace LexRules

namespace Finder

structure Clean (f : Finder) (tree : FileTree) (grants : Access → Bool) (deep required : Bool)
    (dir : Path) : Prop where
  patterns : f.ValidPatterns
  lists : ∀ names, (deep = false → names = []) → f.InScope tree grants dir names →
    ∃ listing, tree.names (Path.under dir names) = .ok listing
  files : ∀ names n, f.Qualifies tree grants deep dir names n →
    RuleFile.Flawless tree required (Path.under dir (names ++ [n]))

section

variable {f : Finder} {tree : FileTree} {deep required : Bool} {paths : List Path} {dir other : Path}
  {o p : Found} {names : List Name} {n : Name} (hnamed : tree.WellNamed)
  (hplain : ∀ dir ∈ paths, tree.PlainUnder dir)

include hnamed

lemma openPath_of_key (ho : o ∈ (f.findOn tree deep dir).found)
    (hp : p ∈ (f.findOn tree deep other).found) (h : o.key = p.key) :
    tree.openPath o.path = tree.openPath p.path := by
  obtain ⟨names, n, hopath, -, -, ⟨listing, hlisting, hn⟩, -⟩ := open_of_findOn ho
  obtain ⟨others, m, hppath, -, -, ⟨again, hagain, hm⟩, -⟩ := open_of_findOn hp
  rw [Found.key, Found.key] at h
  rw [hopath, hppath, Path.under_append, Path.under_append] at h ⊢
  exact FileTree.openPath_join_congr (hnamed.isName hlisting hn) (hnamed.isName hagain hm) h

include hplain

lemma qualifies_of_found (h : p ∈ (f.findAll tree deep paths).found) :
    ∃ dir ∈ paths, ∃ names n, p.path = Path.under dir (names ++ [n]) ∧
      f.Qualifies tree Access.search deep dir names n ∧ f.Reaches tree dir names := by
  have hmem := (arranged_findAll f tree deep paths).found_of_mem p h
  obtain ⟨dir, hdir, hp⟩ := List.mem_flatMap.1 hmem
  obtain ⟨names, n, hpath, hqualifies, hreaches, -⟩ :=
    (mem_findOn_iff hnamed (hplain dir hdir)).1 hp
  exact ⟨dir, hdir, names, n, hpath, hqualifies, hreaches⟩

lemma exists_found (hdir : dir ∈ paths) (hqualifies : f.Qualifies tree Access.search deep dir names n)
    (hreaches : f.Reaches tree dir names) :
    ∃ p ∈ (f.findAll tree deep paths).found,
      p.key = Path.components (Path.under dir (names ++ [n])) ∧
      tree.openPath p.path = tree.openPath (Path.under dir (names ++ [n])) := by
  obtain ⟨ext, hext⟩ := hqualifies.extension
  -- another search path may have given the same file in another spelling, and that one may be kept
  have ho : ⟨Path.under dir (names ++ [n]), ext⟩ ∈ (f.findOn tree deep dir).found :=
    (mem_findOn_iff hnamed (hplain dir hdir)).2 ⟨names, n, rfl, hqualifies, hreaches, hext⟩
  have harranged := arranged_findAll f tree deep paths
  obtain ⟨p, hp, hkey⟩ := harranged.keeps _ (List.mem_flatMap.2 ⟨dir, hdir, ho⟩)
  obtain ⟨other, hother, hpother⟩ := List.mem_flatMap.1 (harranged.found_of_mem p hp)
  exact ⟨p, hp, hkey, openPath_of_key hnamed hpother ho hkey⟩

lemma filter_files (hdir : dir ∈ paths) (hqualifies : f.Qualifies tree Access.search deep dir names n)
    (hreaches : f.Reaches tree dir names) (required : Bool) :
    ∃ g, ((RuleFile.readAll tree required ((f.findAll tree deep paths).found.map Found.path)).filter
        fun h => Path.same h.path (Path.under dir (names ++ [n]))) = [g] ∧
      RuleFile.Told required g.path (tree.openPath (Path.under dir (names ++ [n]))) g.rules g.fault := by
  obtain ⟨p, hp, hkey, hopen⟩ := exists_found hnamed hplain hdir hqualifies hreaches
  refine ⟨RuleFile.read tree required p.path, ?_, ?_⟩
  · have hincreasing := (arranged_findAll f tree deep paths).increasing
    rw [RuleFile.readAll, List.map_map, List.filter_map, filter_eq_singleton (hincreasing.imp LT.lt.ne) hp]
    · rfl
    · intro o
      rw [hkey]
      simp [Path.same_iff, Found.key]
  · rw [← hopen, RuleFile.path_read]
    exact RuleFile.read_told tree required p.path

lemma all_clean_iff (f : Finder) (deep required : Bool) :
    ((f.findAll tree deep paths).isComplete && (RuleFile.readAll tree required
        ((f.findAll tree deep paths).found.map Found.path)).all RuleFile.isOk) = true ↔
      ∀ dir ∈ paths, tree.isDirectory dir = true → f.Clean tree Access.search deep required dir := by
  rw [Bool.and_eq_true, isComplete_findAll, RuleFile.all_isOk_iff, List.forall_mem_map]
  constructor
  · rintro ⟨hcomplete, hfiles⟩ dir hdir hroot
    obtain ⟨start, hstart, hdirectory⟩ := FileTree.locate_of_isDirectory hroot
    have hbelow := hplain dir hdir start hstart hdirectory
    obtain ⟨hpatterns, hlists⟩ :=
      (findOn_complete_iff hnamed hbelow hstart hdirectory).1 (hcomplete dir hdir)
    refine ⟨hpatterns, hlists, fun names n hqualifies => ?_⟩
    have hreaches := reaches_of_complete hnamed hbelow hstart hdirectory (hcomplete dir hdir)
      hqualifies.depth hqualifies.inScope
    obtain ⟨p, hp, -, hopen⟩ := exists_found hnamed hplain hdir hqualifies hreaches
    have htold := RuleFile.read_told tree required p.path
    rw [hopen] at htold
    exact htold.flawless_iff.1 (hfiles p hp)
  · intro h
    refine ⟨fun dir hdir => ?_, fun p hp => ?_⟩
    · cases hroot : tree.isDirectory dir with
      | false => exact (findOn_of_not_directory hroot).2
      | true =>
        obtain ⟨start, hstart, hdirectory⟩ := FileTree.locate_of_isDirectory hroot
        have hclean := h dir hdir hroot
        exact (findOn_complete_iff hnamed (hplain dir hdir start hstart hdirectory) hstart
          hdirectory).2 ⟨hclean.patterns, hclean.lists⟩
    · obtain ⟨dir, hdir, names, n, hpath, hqualifies, hreaches⟩ := qualifies_of_found hnamed hplain hp
      have hclean := (h dir hdir hreaches.isDirectory).files names n hqualifies
      rw [← hpath] at hclean
      exact (RuleFile.read_told tree required p.path).flawless_iff.2 hclean

omit hplain in
lemma clean_iff (hplain : tree.PlainUnder dir) (hdirectory : tree.isDirectory dir = true)
    (hsearchable : ∀ start, tree.locate dir = .ok start → ∀ place, tree.Below start place →
      (tree.accessAt place).list = true → (tree.accessAt place).search = true) :
    f.Clean tree Access.search deep required dir ↔ f.Clean tree (fun _ => true) deep required dir := by
  obtain ⟨start, hstart, hat⟩ := FileTree.locate_of_isDirectory hdirectory
  have hbelow := hplain start hstart hat
  have hsearch := hsearchable start hstart
  constructor
  · intro h
    refine ⟨h.patterns, fun names hdepth hscope => h.lists names hdepth ?_, fun names n hqualifies =>
      h.files names n ?_⟩
    · exact (inScope_iff_of_lists hnamed hbelow hstart hsearch h.lists hdepth).1 hscope
    · exact (qualifies_iff_of_lists hnamed hbelow hstart hsearch h.lists).1 hqualifies
  · intro h
    have hlists : ∀ names, (deep = false → names = []) → f.InScope tree Access.search dir names →
        ∃ listing, tree.names (Path.under dir names) = .ok listing :=
      fun names hdepth ⟨other, place, hother, hwalks⟩ =>
        h.lists names hdepth ⟨other, place, hother, hwalks.mono fun _ _ _ => rfl⟩
    refine ⟨h.patterns, hlists, fun names n hqualifies => h.files names n ?_⟩
    exact (qualifies_iff_of_lists hnamed hbelow hstart hsearch hlists).2 hqualifies

end

end Finder

namespace Outcome

structure Judges (outcome : Outcome) (c : Context) (s : Settings) (deep required : Bool)
    (format : OutputFormat) : Prop where
  code : outcome.code = 0 ∨ outcome.code = 1
  /-- Directories that can be searched are gone through, and all of them have to be listed. -/
  zero_iff : outcome.code = 0 ↔ ∀ dir ∈ s.searchPaths c.root, c.tree.isDirectory dir = true →
    (Finder.ofSettings s).Clean c.tree Access.search deep required dir
  /-- No directory is passed over, if all that can be listed can be searched. -/
  searchable : (∀ dir ∈ s.searchPaths c.root, ∀ start, c.tree.locate dir = .ok start →
      ∀ place, c.tree.Below start place →
        (c.tree.accessAt place).list = true → (c.tree.accessAt place).search = true) →
    (outcome.code = 0 ↔ ∀ dir ∈ s.searchPaths c.root, c.tree.isDirectory dir = true →
      (Finder.ofSettings s).Clean c.tree (fun _ => true) deep required dir)
  reports : ∃ files, outcome.Prints c ((s.searchPaths c.root).flatMap fun dir =>
      Findings.faultsOf ((Finder.ofSettings s).find c.tree deep dir)) files format ∧
    (∀ dir ∈ s.searchPaths c.root, ∀ names n,
      (Finder.ofSettings s).Qualifies c.tree Access.search deep dir names n →
      (Finder.ofSettings s).Reaches c.tree dir names →
        ∃ g, (files.filter fun h => Path.same h.path (Path.under dir (names ++ [n]))) = [g] ∧
          RuleFile.Told required g.path (c.tree.openPath (Path.under dir (names ++ [n]))) g.rules
            g.fault) ∧
    ∀ g ∈ files, ∃ dir ∈ s.searchPaths c.root, ∃ names n, g.path = Path.under dir (names ++ [n]) ∧
      (Finder.ofSettings s).Qualifies c.tree Access.search deep dir names n ∧
      (Finder.ofSettings s).Reaches c.tree dir names

end Outcome

namespace Environment

def context (e : Environment) (i : Invocation) : Context :=
  ⟨e.tree, i.root.getD e.home, !i.noColor && !e.noColor⟩

variable {e : Environment} {i : Invocation} {deep required : Bool} {format : OutputFormat}
  {settings : Settings}

lemma run_of_report {command : Command} {r : Report} (hargs : Arguments.read e.args = .ok i)
    (hcommand : i.command = some command) (hr : Report.of (e.context i) e.stdin command = .ok r) :
    e.run = ⟨if r.ok then 0 else 1, printed r.stdout, printed r.stderr, none,
      e.log i.verbose r.notes⟩ := by
  rw [context] at hr
  simp only [run, hargs, runInvocation, hcommand, hr]

lemma run_parse (hargs : Arguments.read e.args = .ok i)
    (hcommand : i.command = some (.parse [] deep required format))
    (hsettings : (e.context i).settings = .ok settings) {d : Findings} {files : List RuleFile}
    (hd : (Finder.ofSettings settings).findAll e.tree (deep || settings.deep)
      (settings.searchPaths (e.context i).root) = d)
    (hfiles : RuleFile.readAll e.tree (settings.requireNamespace || required) (d.found.map Found.path) =
      files) :
    e.run.code = (if d.isComplete && files.all RuleFile.isOk then 0 else 1) ∧
      e.run.Prints (e.context i) d.faults files format := by
  cases format with
  | json =>
    have hparse : Report.of (e.context i) e.stdin (.parse [] deep required .json) = .ok
        ⟨[Text.jsonArray (files.map (Report.fileJson (e.context i)))], faultLines (e.context i) d ++ [],
          d.isComplete && files.all RuleFile.isOk,
          (e.context i).settingsNotes ++ d.notes ++ files.flatMap RuleFile.notes⟩ := by
      rw [Report.of, Report.parse, hsettings, ← hfiles, ← hd]
      rfl
    rw [run_of_report hargs hcommand hparse, Context.faultLines_eq, List.append_nil, Text.jsonArray_eq,
      funext Context.fileJson_eq]
    exact ⟨rfl, rfl, rfl⟩
  | text =>
    have hparse : Report.of (e.context i) e.stdin (.parse [] deep required .text) = .ok
        ⟨(Report.parsedText (e.context i) files).1,
          faultLines (e.context i) d ++ (Report.parsedText (e.context i) files).2,
          d.isComplete && files.all RuleFile.isOk,
          (e.context i).settingsNotes ++ d.notes ++ files.flatMap RuleFile.notes⟩ := by
      rw [Report.of, Report.parse, hsettings, ← hfiles, ← hd]
      rfl
    rw [run_of_report hargs hcommand hparse, Context.faultLines_eq, Context.parsedText_eq]
    exact ⟨rfl, rfl, rfl⟩

theorem parse_judges_project (hargs : Arguments.read e.args = .ok i)
    (hcommand : i.command = some (.parse [] deep required format))
    (hsettings : (e.context i).settings = .ok settings) (hnamed : e.tree.WellNamed)
    (hplain : ∀ dir ∈ settings.searchPaths (e.context i).root, e.tree.PlainUnder dir) :
    e.run.Judges (e.context i) settings (deep || settings.deep) (settings.requireNamespace || required)
      format := by
  obtain ⟨hcode, hprints⟩ := run_parse hargs hcommand hsettings rfl rfl
  have hzero : e.run.code = 0 ↔ ∀ dir ∈ settings.searchPaths (e.context i).root,
      (e.context i).tree.isDirectory dir = true → (Finder.ofSettings settings).Clean (e.context i).tree
        Access.search (deep || settings.deep) (settings.requireNamespace || required) dir := by
    have hbit : ∀ ok : Bool, (if ok = true then 0 else 1) = 0 ↔ ok = true := by decide
    rw [hcode]
    exact (hbit _).trans (Finder.all_clean_iff hnamed hplain _ _ _)
  constructor
  case code =>
    rw [hcode]
    split
    · exact Or.inl rfl
    · exact Or.inr rfl
  case zero_iff => exact hzero
  case searchable =>
    intro hsearchable
    refine hzero.trans (forall₂_congr fun dir hdir => forall_congr' fun hdirectory => ?_)
    exact Finder.clean_iff hnamed (hplain dir hdir) hdirectory (hsearchable dir hdir)
  case reports =>
    refine ⟨_, ?_, fun dir hdir names n hqualifies hreaches =>
      Finder.filter_files hnamed hplain hdir hqualifies hreaches _, fun g hg => ?_⟩
    · rw [Finder.faults_findAll] at hprints
      simp only [Finder.faults_findOn] at hprints
      exact hprints
    · obtain ⟨path, hpath, rfl⟩ := List.mem_map.1 hg
      obtain ⟨p, hp, rfl⟩ := List.mem_map.1 hpath
      rw [RuleFile.path_read]
      exact Finder.qualifies_of_found hnamed hplain hp

lemma settings_of_no_file {c : Context} (h : Settings.file? c.tree c.root = none) :
    c.settings = .ok .default := by
  rw [Context.settings, Settings.load, h]
  rfl

/-- A project with a definition file, a second one in a directory that cannot be listed, and no
settings file. -/
def halfShut : Environment where
  args := ["parse".toList, "--deep".toList]
  tree := ⟨#[.directory 0 [(Path.of "lexf", 1)] .full,
    .directory 0 [(Path.of "a.lex", 2), (Path.of "shut", 3)] .full,
    .file [0x31, 0x2F, 0x61, 0x2F, 0x78] false,
    .directory 1 [(Path.of "b.lex", 4)] .shut, .file [] false], 0, 40⟩
  home := Path.of "/"
  stdin := []
  noColor := false
  logFilter := none

theorem parse_judges_half_shut : ∃ i, Arguments.read halfShut.args = .ok i ∧
    i.command = some (.parse [] true false .text) ∧
    (halfShut.context i).settings = .ok .default ∧ halfShut.tree.WellNamed ∧
    (∀ dir ∈ Settings.default.searchPaths (halfShut.context i).root, halfShut.tree.PlainUnder dir) ∧
    halfShut.run.Judges (halfShut.context i) .default true false .text := by
  have hargs : Arguments.read halfShut.args =
      .ok ⟨some (.parse [] true false .text), none, false, false⟩ := rfl
  have hsettings : (halfShut.context ⟨some (.parse [] true false .text), none, false, false⟩).settings =
      .ok .default := settings_of_no_file (by cbv)
  have hlocate : halfShut.tree.locate (Path.of "/lexf") = .ok 1 := by cbv
  have hunder : ∀ dir ∈ Settings.default.searchPaths (Path.of "/"), halfShut.tree.PlainUnder dir := by
    intro dir hdir start hstart _
    obtain rfl : dir = (Path.of "/lexf") := List.mem_singleton.1 hdir
    obtain rfl := Except.ok.inj (hlocate.symm.trans hstart)
    exact FileTree.plainBelow_of_closed (P := fun place => place ≠ 0) (by decide) (by decide)
      (by decide) (by decide) (by decide)
  have hnamed : halfShut.tree.WellNamed := by decide
  exact ⟨_, hargs, rfl, hsettings, hnamed, hunder,
    parse_judges_project hargs rfl hsettings hnamed hunder⟩

/-- A project whose search path can be listed but not searched, with a file without rules further down. -/
def veiled : Environment where
  args := ["parse".toList, "--deep".toList]
  tree := ⟨#[.directory 0 [(Path.of "lexf", 1)] .full, .directory 0 [(Path.of "sub", 2)] ⟨true, false⟩,
    .directory 1 [(Path.of "a.lex", 3)] .full, .file [0x62, 0x61, 0x64] false], 0, 40⟩
  home := Path.of "/"
  stdin := []
  noColor := true
  logFilter := none

/-- A project in a directory that can be neither listed nor searched. -/
def shut : Environment where
  args := ["parse".toList, "--path".toList, "p".toList]
  tree := ⟨#[.directory 0 [(Path.of "p", 1)] .full, .directory 0 [(Path.of "lexf", 2)] .shut,
    .directory 1 [(Path.of "a.lex", 3)] .full, .file [0x62, 0x61, 0x64] false], 0, 40⟩
  home := Path.of "/"
  stdin := []
  noColor := true
  logFilter := none

theorem parse_misses_hidden :
    (veiled.run.code = 0 ∧ ¬ ∀ dir ∈ Settings.default.searchPaths veiled.home,
      veiled.tree.isDirectory dir = true →
        (Finder.ofSettings .default).Clean veiled.tree (fun _ => true) true false dir) ∧
    shut.run.code = 0 ∧ shut.run.stdout = "No definition files found.\n".toList ∧ shut.run.stderr = [] ∧
      shut.tree.entriesAt 1 = [(Path.of "lexf", 2)] ∧ shut.tree.isDirectoryAt 2 = true ∧
      ∃ cause, shut.tree.names (Path.of "p/lexf") = .error cause := by
  refine ⟨⟨?_, fun h => ?_⟩, ?_⟩
  · have hargs : Arguments.read veiled.args =
        .ok ⟨some (.parse [] true false .text), none, false, false⟩ := rfl
    have hsettings : (veiled.context ⟨some (.parse [] true false .text), none, false, false⟩).settings =
        .ok .default := settings_of_no_file (by cbv)
    have hfound : (Finder.ofSettings .default).findAll veiled.tree true [Path.of "/lexf"] =
        ⟨[], [], [.deepFinished (Path.of "/lexf") 0 0]⟩ := by cbv
    exact (run_parse hargs rfl hsettings hfound rfl).1
  · have hclean := h (Path.of "/lexf") List.mem_cons_self rfl
    have hwalks : ((Finder.ofSettings .default).searchOf veiled.tree (Path.of "/lexf")).Walks
        (fun _ => true) (Path.of "/lexf") 1 [Path.of "sub"] 2 :=
      ⟨.snoc .nil rfl (by decide), fun _ _ _ => rfl, rfl⟩
    have hdenied : veiled.tree.names (Path.under (Path.of "/lexf") [Path.of "sub"]) =
        .error .denied := rfl
    obtain ⟨listing, hlisting⟩ :=
      hclean.lists [Path.of "sub"] (fun h => Bool.noConfusion h) ⟨1, 2, rfl, hwalks⟩
    cases hdenied.symm.trans hlisting
  · have hargs : Arguments.read shut.args =
        .ok ⟨some (.parse [] false false .text), some (Path.of "p"), false, false⟩ := rfl
    have hsettings : (shut.context
        ⟨some (.parse [] false false .text), some (Path.of "p"), false, false⟩).settings =
        .ok .default := settings_of_no_file (by cbv)
    have hfound : (Finder.ofSettings .default).findAll shut.tree false [Path.of "p/lexf"] =
        ⟨[], [], [.noDirectory (Path.of "p/lexf")]⟩ := by cbv
    obtain ⟨hcode, hout, herr⟩ := run_parse hargs rfl hsettings hfound rfl
    exact ⟨hcode, hout, herr, rfl, rfl, .denied, rfl⟩

end Environment

end LexRules
