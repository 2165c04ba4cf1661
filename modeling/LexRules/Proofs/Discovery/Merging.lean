import LexRules.Proofs.Discovery.Project
import LexRules.Proofs.Discovery.Scope
import LexRules.Proofs.Path.Shown
import Mathlib.Data.List.Forall2

/-! Several search paths searched together, on any tree. Each file is listed once and in order, no fault
of one path keeps the files of another away, and paths given in another order list the same files. -/

namespace LexRules

namespace Found

variable {set : Extensions} {found others : List Found}

lemma forall₂_same (hfound : ∀ o ∈ found, Matches set o) (hothers : ∀ o ∈ others, Matches set o)
    (h : found.map key = others.map key) : List.Forall₂ (fun o p => o.same p = true) found others := by
  induction found generalizing others with
  | nil =>
    obtain rfl : others = [] := List.map_eq_nil_iff.1 h.symm
    exact .nil
  | cons o found ih =>
    cases others with
    | nil => exact absurd h (List.cons_ne_nil _ _)
    | cons p others =>
      obtain ⟨hkey, hkeys⟩ := List.cons.inj h
      obtain ⟨ho, hfound⟩ := List.forall_mem_cons.1 hfound
      obtain ⟨hp, hothers⟩ := List.forall_mem_cons.1 hothers
      exact .cons (same_of_key ho hp hkey) (ih hfound hothers hkeys)

lemma Arranged.keys_eq {arranged again : List Found} (h : Arranged found arranged)
    (hagain : Arranged others again) (hsame : ∀ o, o ∈ found ↔ o ∈ others) :
    arranged.map key = again.map key := by
  have hsorted : (arranged.map key).Pairwise fun k l => id k < id l :=
    List.pairwise_map.2 h.increasing
  have hsorted' : (again.map key).Pairwise fun k l => id k < id l :=
    List.pairwise_map.2 hagain.increasing
  apply eq_of_increasing hsorted hsorted'
  intro k
  rw [List.mem_map, List.mem_map]
  constructor
  · rintro ⟨o, ho, rfl⟩
    exact hagain.keeps o ((hsame o).1 (h.found_of_mem o ho))
  · rintro ⟨o, ho, rfl⟩
    exact h.keeps o ((hsame o).2 (hagain.found_of_mem o ho))

end Found

def Findings.faultsOf : Except Fault Findings → List Fault
  | .ok d => d.faults
  | .error fault => [fault]

namespace Finder

variable {f : Finder} {tree : FileTree} {deep : Bool} {dir : Path} {paths others : List Path} {o : Found}

lemma matches_of_findOn (ho : o ∈ (f.findOn tree deep dir).found) : Found.Matches f.extensions o := by
  obtain ⟨-, -, -, -, -, -, -, -, hmatches⟩ := open_of_findOn ho
  exact hmatches

lemma within_of_findOn {root : Path} (hdir : Path.Within root dir)
    (ho : o ∈ (f.findOn tree deep dir).found) : Path.Within root o.path := by
  obtain ⟨names, n, hpath, -⟩ := open_of_findOn ho
  rw [hpath]
  exact hdir.under _

lemma mem_findOn : o ∈ (f.findOn tree deep dir).found ↔
    ∃ d, f.find tree deep dir = .ok d ∧ o ∈ d.found := by
  rw [findOn]
  cases f.find tree deep dir with
  | ok d => simp
  | error fault => simp [Findings.ofFault]

lemma faults_findOn : (f.findOn tree deep dir).faults = Findings.faultsOf (f.find tree deep dir) := by
  rw [findOn]
  cases f.find tree deep dir <;> rfl

lemma matches_of_findAll (f : Finder) (tree : FileTree) (deep : Bool) (paths : List Path) :
    ∀ o ∈ paths.flatMap fun dir => (f.findOn tree deep dir).found, Found.Matches f.extensions o := by
  intro o ho
  obtain ⟨dir, -, ho⟩ := List.mem_flatMap.1 ho
  exact matches_of_findOn ho

lemma arranged_findAll (f : Finder) (tree : FileTree) (deep : Bool) (paths : List Path) :
    Found.Arranged (paths.flatMap fun dir => (f.findOn tree deep dir).found)
      (f.findAll tree deep paths).found := by
  rw [found_findAll]
  exact Found.arrange_spec (matches_of_findAll f tree deep paths)

lemma findAll_perm (hperm : paths.Perm others) : List.Forall₂ (fun o p => o.same p = true)
    (f.findAll tree deep paths).found (f.findAll tree deep others).found := by
  have h := arranged_findAll f tree deep paths
  have hagain := arranged_findAll f tree deep others
  apply Found.forall₂_same
  · exact fun o ho => matches_of_findAll f tree deep paths o (h.found_of_mem o ho)
  · exact fun o ho => matches_of_findAll f tree deep others o (hagain.found_of_mem o ho)
  · apply h.keys_eq hagain
    intro o
    rw [List.mem_flatMap, List.mem_flatMap]
    simp only [hperm.mem_iff]

lemma seen_nodup {root : Path} (hwithin : ∀ dir ∈ paths, Path.Within root dir) :
    ((f.findAll tree deep paths).found.map fun o => Path.seenFrom root o.path).Nodup := by
  have harranged := arranged_findAll f tree deep paths
  have hfound : ∀ o ∈ (f.findAll tree deep paths).found, Path.Within root o.path := by
    intro o ho
    obtain ⟨dir, hdir, ho⟩ := List.mem_flatMap.1 (harranged.found_of_mem o ho)
    exact within_of_findOn (hwithin dir hdir) ho
  apply List.pairwise_map.2
  apply harranged.increasing.imp_of_mem
  intro o p ho hp hlt hseen
  exact hlt.ne (Path.components_eq_of_seen (hfound o ho) (hfound p hp) hseen)

end Finder

end LexRules
