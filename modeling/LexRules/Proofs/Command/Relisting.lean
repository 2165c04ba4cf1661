import LexRules.Proofs.Command.Listing
import LexRules.Proofs.Discovery.Relisting

/-! Listing definition files when directories list in one order or another. Where two paths of one
length lead to a directory, the order decides which of them is printed; otherwise it decides nothing. -/

namespace LexRules

namespace Environment

variable {e : Environment} {i : Invocation} {extensions : List Text} {format : OutputFormat}
  {settings : Settings} {fault : Fault}

def relist (e : Environment) (again : FileTree) : Environment := { e with tree := again }

lemma run_discover_error (hargs : Arguments.read e.args = .ok i)
    (hcommand : i.command = some (.discover true extensions format))
    (hsettings : (e.context i).settings = .error fault) : e.run.stdout = [] ∧ e.run.code = 2 := by
  have hreport : Report.of (e.context i) e.stdin (.discover true extensions format) = .error fault := by
    rw [Report.of, Report.discover, hsettings]
    rfl
  rw [context] at hreport
  simp only [run, hargs, runInvocation, hcommand, hreport, and_self]

lemma run_relisted {again : FileTree} (hrelisted : e.tree.Relisted again) (hnamed : e.tree.WellNamed)
    (hargs : Arguments.read e.args = .ok i)
    (hcommand : i.command = some (.discover true extensions format))
    (huntied : ∀ settings, (e.context i).settings = .ok settings →
      ∀ dir ∈ settings.searchPaths (e.context i).root,
        (Report.discoverFinder settings extensions).Untied e.tree dir) :
    (e.relist again).run.stdout = e.run.stdout ∧ (e.relist again).run.code = e.run.code := by
  have hsame : ((e.relist again).context i).settings = (e.context i).settings :=
    congrArg (Except.map _) (Settings.load_relisted hrelisted hnamed _)
  cases hsettings : (e.context i).settings with
  | error fault =>
    obtain ⟨hout, hcode⟩ := run_discover_error hargs hcommand hsettings
    obtain ⟨hout', hcode'⟩ := run_discover_error (e := e.relist again) hargs hcommand
      (hsame.trans hsettings)
    exact ⟨hout'.trans hout.symm, hcode'.trans hcode.symm⟩
  | ok settings =>
    obtain ⟨hfound, hcomplete⟩ := Finder.findAll_relisted hrelisted hnamed (huntied settings hsettings)
    rw [run_discover hargs hcommand hsettings rfl,
      run_discover (e := e.relist again) hargs hcommand (hsame.trans hsettings) rfl]
    refine ⟨?_, ?_⟩
    · exact congrArg (fun found => Text.written ((e.context i).foundLines found format)) hfound
    · exact congrArg (fun complete : Bool => if complete then 0 else 1) hcomplete

end Environment

namespace FileTree

/-- Two trees that searches cannot tell apart, as long as no tie makes the order of a listing decide. -/
structure Interchangeable (tree again : FileTree) : Prop where
  untied : ∀ (f : Finder) dir, tree.PlainUnder dir → f.Untied tree dir
  alike : ∀ (f : Finder) dir, f.Untied tree dir → Search.Alike (f.deep tree dir) (f.deep again dir)
  entries : ∀ (f : Finder) dir s left d e, f.search tree dir = .ok s → s.ByName dir left →
    f.deep tree dir = .ok d → f.deep again dir = .ok e →
      (d.found.map fun o => tree.slot? o.path).Perm (e.found.map fun o => tree.slot? o.path)
  prints : ∀ (e : Environment) i extensions format, e.tree = tree → Arguments.read e.args = .ok i →
    i.command = some (.discover true extensions format) →
    (∀ settings, (e.context i).settings = .ok settings →
      ∀ dir ∈ settings.searchPaths (e.context i).root,
        (Report.discoverFinder settings extensions).Untied tree dir) →
      (e.relist again).run.stdout = e.run.stdout ∧ (e.relist again).run.code = e.run.code

variable {tree again : FileTree}

theorem interchangeable_of_relisted (hnamed : tree.WellNamed) (hrelisted : tree.Relisted again) :
    tree.Interchangeable again := by
  constructor
  case untied =>
    intro f dir hplain hroot s hs
    obtain ⟨start, hstart, hdirectory⟩ := locate_of_isDirectory hroot
    obtain rfl := Finder.tree_of_search hs
    exact Search.untied_of_plainBelow hnamed (hplain start hstart hdirectory) hstart
  case alike => exact fun f dir huntied => Finder.deep_relisted hrelisted hnamed huntied
  case entries =>
    intro f dir s left d e hs hleft hd he
    rcases Finder.search_relisted f hrelisted dir with
      ⟨fault, hfault, -⟩ | ⟨s', t, hs', ht, rfl, -, hsearch⟩
    · exact absurd (hs.symm.trans hfault) nofun
    obtain rfl := Except.ok.inj (hs.symm.trans hs')
    have hsame := isDirectory_relisted hrelisted hnamed dir
    cases hroot : s.tree.isDirectory dir with
    | false =>
      rw [Finder.deep, hroot] at hd
      rw [Finder.deep, hsame, hroot] at he
      rw [← Except.ok.inj hd, ← Except.ok.inj he]
    | true =>
      rw [Search.deep_of_search hroot hs] at hd
      rw [Finder.deep, hsame, hroot, ht] at he
      exact Search.slots_relisted hsearch hnamed hleft hroot hd he
  case prints =>
    rintro e i extensions format rfl hargs hcommand huntied
    exact Environment.run_relisted hrelisted hnamed hargs hcommand huntied

def loopEntries : List (Name × Nat) := [(Path.of "a.lex", 2), (Path.of "sub", 3), (Path.of "up", 5)]

/-- A link leads back above its own directory, but no directory lies at two paths of one length. -/
def looping (entries : List (Name × Nat)) : FileTree :=
  ⟨#[.directory 0 [(Path.of "lexf", 1)] .full, .directory 0 entries .full, .file [] false,
    .directory 1 [(Path.of "b.lex", 4)] .full, .file [] false, .link (Path.of "..")], 0, 40⟩

theorem interchangeable_looping :
    (looping loopEntries).WellNamed ∧
      (looping loopEntries).Relisted (looping loopEntries.reverse) ∧
      (looping loopEntries).Interchangeable (looping loopEntries.reverse) ∧
      (Finder.ofSettings .default).Untied (looping loopEntries) (Path.of "/lexf") ∧
      ((looping loopEntries).listing.relist (looping loopEntries.reverse)).run.stdout =
        (looping loopEntries).listing.run.stdout := by
  have hnamed : (looping loopEntries).WellNamed := by decide
  have hrelisted : (looping loopEntries).Relisted (looping loopEntries.reverse) :=
    ⟨.cons (.directory 0 .full (.refl _)) (.cons (.directory 0 .full (List.reverse_perm _).symm)
      (.cons (.file [] false) (.cons (.directory 1 .full (.refl _)) (.cons (.file [] false)
        (.cons (.link _) .nil))))), rfl, rfl⟩
  have huntied : (Finder.ofSettings .default).Untied (looping loopEntries) (Path.of "/lexf") := by
    intro _ s hs
    obtain rfl : (Finder.ofSettings .default).searchOf (looping loopEntries) (Path.of "/lexf") = s :=
      Except.ok.inj hs
    have harrivals : ((Finder.ofSettings .default).searchOf (looping loopEntries)
        (Path.of "/lexf")).arrivals (Path.of "/lexf") =
          [((Path.of "/lexf"), 2, .ok 1), ((Path.of "/lexf/sub"), 3, .ok 3), ((Path.of "/lexf/up"), 3, .ok 0),
            ((Path.of "/lexf/up/lexf"), 4, .ok 1)] := by cbv
    refine Search.untied_of_arrivals ?_
    rw [harrivals]
    decide
  have hinterchangeable := interchangeable_of_relisted hnamed hrelisted
  refine ⟨hnamed, hrelisted, hinterchangeable, huntied, ?_⟩
  have hsettings : ((looping loopEntries).listing.context
      ⟨some (.discover true [] .text), none, false, false⟩).settings = .ok .default :=
    Environment.settings_of_no_file (by cbv)
  have hargs : Arguments.read (looping loopEntries).listing.args =
      .ok ⟨some (.discover true [] .text), none, false, false⟩ := rfl
  refine (hinterchangeable.prints _ _ [] .text rfl hargs rfl fun settings hok dir hdir => ?_).1
  obtain rfl := Except.ok.inj (hsettings.symm.trans hok)
  obtain rfl : dir = (Path.of "/lexf") := List.mem_singleton.1 hdir
  exact huntied

def forked (links : List (Name × Nat)) : FileTree :=
  ⟨#[.directory 0 [(Path.of "lexf", 1), (Path.of "out", 2)] .full, .directory 0 links .full,
    .directory 0 [(Path.of "x.lex", 3)] .full, .file [] false,
    .link (Path.of "/out"), .link (Path.of "/out")], 0, 40⟩

def forkLinks : List (Name × Nat) := [(Path.of "a", 4), (Path.of "b", 5)]

/-- Of two paths that are as short, the one listed first is the one that is found and printed. -/
theorem forked_by_order :
    (forked forkLinks).WellNamed ∧ (forked forkLinks).Relisted (forked forkLinks.reverse) ∧
      (((Finder.ofSettings .default).deep (forked forkLinks) (Path.of "/lexf")).map fun d =>
        d.found.map Found.path) = .ok [(Path.of "/lexf/a/x.lex")] ∧
      (((Finder.ofSettings .default).deep (forked forkLinks.reverse) (Path.of "/lexf")).map fun d =>
        d.found.map Found.path) = .ok [(Path.of "/lexf/b/x.lex")] ∧
      (forked forkLinks).listing.run.stdout = "lexf/a/x.lex\n".toList ∧
      ((forked forkLinks).listing.relist (forked forkLinks.reverse)).run.stdout =
        "lexf/b/x.lex\n".toList := by
  refine ⟨by decide, ⟨?_, rfl, rfl⟩, by cbv, by cbv, ?_, ?_⟩
  · exact .cons (.directory 0 .full (.refl _)) (.cons (.directory 0 .full (.swap _ _ _))
      (.cons (.directory 0 .full (.refl _)) (.cons (.file [] false) (.cons (.link _)
        (.cons (.link _) .nil)))))
  · have hfound : ((Finder.ofSettings .default).findAll (forked forkLinks) true
        [Path.of "/lexf"]).found = [⟨Path.of "/lexf/a/x.lex", "lex".toList⟩] := by cbv
    rw [stdout_listing (by cbv) hfound (List.cons_ne_nil _ _)]
    cbv
  · have hfound : ((Finder.ofSettings .default).findAll (forked forkLinks.reverse) true
        [Path.of "/lexf"]).found = [⟨Path.of "/lexf/b/x.lex", "lex".toList⟩] := by cbv
    refine (stdout_listing (by cbv) hfound (List.cons_ne_nil _ _)).trans ?_
    cbv

end FileTree

end LexRules
