import LexRules.Proofs.Discovery.Scope
import Mathlib

/-! What stands at the paths that a search finds. A search takes what it does not see to be a directory
for a file. So it is, unless it is a pipe or the like, a link that leads nowhere, or an entry of a
directory that cannot be searched. -/

namespace LexRules

namespace FileTree

def isFileAt (tree : FileTree) (place : Nat) : Bool :=
  match tree.nodes[place]? with
  | some (.file ..) => true
  | _ => false

/-- The table of nodes holds all that it refers to, and what is above a directory is one too. -/
structure Closed (tree : FileTree) : Prop where
  root : tree.isDirectoryAt 0 = true
  parent : ∀ place, place < tree.nodes.size → tree.isDirectoryAt (tree.parentAt place) = true
  entry : ∀ x ∈ tree.allEntries, x.2.2 < tree.nodes.size

def isSpecialAt (tree : FileTree) (place : Nat) : Bool :=
  match tree.nodes[place]? with
  | some (.special _) => true
  | _ => false

variable {tree : FileTree} {depth here place : Nat} {path dir : Path} {n : Name} {listing : List Name}

lemma node_cases (hplace : place < tree.nodes.size) : tree.isFileAt place = true ∨
    tree.isDirectoryAt place = true ∨ tree.isSpecialAt place = true ∨ tree.isLinkAt place = true := by
  rw [isFileAt, isDirectoryAt, isSpecialAt, isLinkAt, Array.getElem?_eq_getElem hplace]
  cases tree.nodes[place] with
  | file content locked => exact Or.inl rfl
  | directory parent entries access => exact Or.inr (Or.inl rfl)
  | special content => exact Or.inr (Or.inr (Or.inl rfl))
  | link target => exact Or.inr (Or.inr (Or.inr rfl))

lemma foldlM_forall {ε α β : Type} {f : β → α → Except ε β} {P : β → Prop}
    (hstep : ∀ b a c, f b a = .ok c → P c) {l : List α} {b c : β} (hb : P b)
    (h : l.foldlM f b = .ok c) : P c := by
  induction l generalizing b with
  | nil => exact Except.ok.inj h ▸ hb
  | cons a l ih =>
    rw [List.foldlM_cons] at h
    cases hnext : f b a with
    | error e => rw [hnext] at h; exact absurd h nofun
    | ok d =>
      rw [hnext] at h
      exact ih (hstep b a d hnext) h

lemma Closed.lands (hclosed : tree.Closed) (hhere : tree.isDirectoryAt here = true)
    (h : tree.Lands here n place) :
    tree.isFileAt place = true ∨ tree.isDirectoryAt place = true ∨ tree.isSpecialAt place = true := by
  cases h with
  | here _ => exact Or.inr (Or.inl hhere)
  | parent _ => exact Or.inr (Or.inl (hclosed.parent here (lt_size_of_isDirectoryAt hhere)))
  | entry hentry hlink =>
    rcases node_cases (hclosed.entry _ (mem_allEntries hentry)) with hfile | hdirectory | hspecial | hat
    · exact Or.inl hfile
    · exact Or.inr (Or.inl hdirectory)
    · exact Or.inr (Or.inr hspecial)
    · exact absurd (hlink.symm.trans hat) Bool.false_ne_true

lemma Closed.step (hclosed : tree.Closed) (h : tree.step depth here n = .ok place) :
    tree.isFileAt place = true ∨ tree.isDirectoryAt place = true ∨ tree.isSpecialAt place = true := by
  induction depth generalizing here n place with
  | zero =>
    rcases step_cases tree here n with ⟨r, hr, hlands⟩ | ⟨id, target, -, -, hzero, -⟩
    · obtain ⟨hhere, hplace⟩ := hlands place ((hr 0).symm.trans h)
      exact hclosed.lands hhere hplace
    · exact absurd (hzero.symm.trans h) nofun
  | succ depth ih =>
    rcases step_cases tree here n with ⟨r, hr, hlands⟩ | ⟨id, target, hentry, -, -, hsucc⟩
    · obtain ⟨hhere, hplace⟩ := hlands place ((hr _).symm.trans h)
      exact hclosed.lands hhere hplace
    · have horigin : tree.isDirectoryAt (origin here target) = true := by
        rw [origin]
        split
        · exact hclosed.root
        · exact isDirectoryAt_of_entry hentry
      exact foldlM_forall (P := fun place => tree.isFileAt place = true ∨
          tree.isDirectoryAt place = true ∨ tree.isSpecialAt place = true)
        (fun _ _ _ => ih) (Or.inr (Or.inl horigin)) ((hsucc depth).symm.trans h)

end FileTree

namespace Finder

end Finder

end LexRules
