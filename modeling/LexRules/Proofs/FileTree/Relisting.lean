import LexRules.Proofs.Discovery.Scope
import LexRules.Rule.File
import Mathlib.Data.List.Forall2

/-! One tree whose directories list their entries in two orders. Every path leads to the same place in
both, so the order shows in the listings alone. -/

namespace LexRules

inductive Node.Relisted : Node → Node → Prop
  | file (content : Text.Bytes) (locked : Bool) : Relisted (.file content locked) (.file content locked)
  | directory (parent : Nat) {entries others : List (Name × Nat)} (access : Access) :
      entries.Perm others → Relisted (.directory parent entries access) (.directory parent others access)
  | link (target : Path) : Relisted (.link target) (.link target)
  | special (content : Except IoCause Text.Bytes) : Relisted (.special content) (.special content)

lemma Node.Relisted.symm {node again : Node} (h : node.Relisted again) : again.Relisted node := by
  cases h with
  | file content locked => exact .file content locked
  | directory parent access hperm => exact .directory parent access hperm.symm
  | link target => exact .link target
  | special content => exact .special content

lemma rel_getElem? {α β : Type} {r : α → β → Prop} {l : List α} {m : List β} (h : List.Forall₂ r l m)
    (i : Nat) : Option.Rel r l[i]? m[i]? := by
  induction h generalizing i with
  | nil => exact .none
  | cons hab _ ih =>
    cases i with
    | zero => exact .some hab
    | succ i => exact ih i

namespace FileTree

structure Relisted (tree other : FileTree) : Prop where
  nodes : List.Forall₂ Node.Relisted tree.nodes.toList other.nodes.toList
  current : tree.current = other.current
  linkLimit : tree.linkLimit = other.linkLimit

variable {tree other : FileTree} {place : Nat} {n : Name} {path : Path}

lemma Relisted.symm (h : tree.Relisted other) : other.Relisted tree :=
  ⟨(h.nodes.imp fun _ _ => Node.Relisted.symm).flip, h.current.symm, h.linkLimit.symm⟩

lemma Relisted.node_cases (h : tree.Relisted other) (place : Nat) :
    (∃ parent access entries others, entries.Perm others ∧
        tree.nodes[place]? = some (.directory parent entries access) ∧
        other.nodes[place]? = some (.directory parent others access)) ∨
      other.nodes[place]? = tree.nodes[place]? ∧ tree.isDirectoryAt place = false := by
  have hnode := rel_getElem? h.nodes place
  rw [Array.getElem?_toList, Array.getElem?_toList] at hnode
  rw [isDirectoryAt]
  generalize tree.nodes[place]? = node at hnode
  generalize other.nodes[place]? = again at hnode
  cases hnode with
  | none => exact Or.inr ⟨rfl, rfl⟩
  | some hnode =>
    cases hnode with
    | file content locked => exact Or.inr ⟨rfl, rfl⟩
    | directory parent access hperm => exact Or.inl ⟨parent, access, _, _, hperm, rfl, rfl⟩
    | link target => exact Or.inr ⟨rfl, rfl⟩
    | special content => exact Or.inr ⟨rfl, rfl⟩

lemma isDirectoryAt_relisted (h : tree.Relisted other) (place : Nat) :
    other.isDirectoryAt place = tree.isDirectoryAt place := by
  rcases h.node_cases place with ⟨parent, access, _, _, -, hnode, hagain⟩ | ⟨hnode, -⟩
  · rw [isDirectoryAt, isDirectoryAt, hnode, hagain]
  · rw [isDirectoryAt, isDirectoryAt, hnode]

lemma namesAt_relisted (h : tree.Relisted other) (place : Nat) :
    (∃ names others, tree.namesAt place = .ok names ∧ other.namesAt place = .ok others ∧
        names.Perm others) ∨
      ∃ cause, tree.namesAt place = .error cause ∧ other.namesAt place = .error cause := by
  rcases h.node_cases place with ⟨parent, access, _, _, hperm, hnode, hagain⟩ | ⟨hnode, hfile⟩
  · rw [namesAt, namesAt, hnode, hagain]
    cases hlist : access.list with
    | true =>
      simp only [hlist, if_true]
      exact Or.inl ⟨_, _, rfl, rfl, hperm.map Prod.fst⟩
    | false =>
      simp only [hlist, Bool.false_eq_true, if_false]
      exact Or.inr ⟨_, rfl, rfl⟩
  · cases hnames : tree.namesAt place with
    | ok names => exact absurd (hfile.symm.trans (isDirectoryAt_of_names hnames)) Bool.false_ne_true
    | error cause => exact Or.inr ⟨cause, rfl, by rw [← hnames, namesAt, namesAt, hnode]⟩

lemma entriesAt_relisted (h : tree.Relisted other) (place : Nat) :
    (tree.entriesAt place).Perm (other.entriesAt place) := by
  rcases h.node_cases place with ⟨parent, access, _, _, hperm, hnode, hagain⟩ | ⟨hnode, -⟩
  · rw [entriesAt, entriesAt, hnode, hagain]
    exact hperm
  · rw [entriesAt, entriesAt, hnode]

lemma wellNamed_relisted (h : tree.Relisted other) (hnamed : tree.WellNamed) : other.WellNamed := by
  intro place
  have hperm := entriesAt_relisted h place
  obtain ⟨hnodup, hproper⟩ := hnamed place
  exact ⟨(hperm.map Prod.fst).nodup_iff.1 hnodup, fun e he => hproper e (hperm.mem_iff.2 he)⟩

lemma entry_perm {entries others : List (Name × Nat)} (hperm : entries.Perm others)
    (hnodup : (entries.map Prod.fst).Nodup) (n : Name) : entry? others n = entry? entries n := by
  have hagain : (others.map Prod.fst).Nodup := (hperm.map Prod.fst).nodup_iff.1 hnodup
  cases hentry : entry? entries n with
  | some id => exact entry_of_nodup hagain (hperm.mem_iff.1 (mem_of_entry hentry))
  | none =>
    cases hother : entry? others n with
    | none => rfl
    | some id =>
      have hmem := entry_of_nodup hnodup (hperm.mem_iff.2 (mem_of_entry hother))
      exact absurd (hentry.symm.trans hmem) nofun

section

variable (h : tree.Relisted other) (hnamed : tree.WellNamed)

include h hnamed

lemma glance_relisted (here : Nat) (n : Name) : other.glance here n = tree.glance here n := by
  unfold glance
  rcases h.node_cases here with ⟨parent, access, entries, others, hperm, hnode, hagain⟩ | ⟨hnode, hfile⟩
  · have hnodup : (entries.map Prod.fst).Nodup := by
      have hall := (hnamed here).1
      rwa [entriesAt, hnode] at hall
    simp only [hnode, hagain, entry_perm hperm hnodup n]
    cases entry? entries n with
    | none => rfl
    | some id =>
      rcases h.node_cases id with ⟨_, _, _, _, -, hid, hsame⟩ | ⟨hid, -⟩
      · simp only [hid, hsame]
      · simp only [hid]
  · rw [hnode]
    split
    · rename_i parent entries access hdirectory
      rw [isDirectoryAt, hdirectory] at hfile
      cases hfile
    · rfl

lemma step_relisted (depth here : Nat) (n : Name) :
    other.step depth here n = tree.step depth here n := by
  induction depth generalizing here n with
  | zero =>
    rw [step_eq_glance, step_eq_glance, glance_relisted h hnamed]
    rcases tree.glance here n with cause | place | target <;> rfl
  | succ depth ih =>
    -- The path that a link gives is followed by steps that may follow one link less.
    have hstep : other.step depth = tree.step depth := funext fun here => funext fun n => ih here n
    rw [step_eq_glance, step_eq_glance, glance_relisted h hnamed]
    rcases tree.glance here n with cause | place | target
    · rfl
    · rfl
    · simp only [hstep]

lemma locate_relisted (path : Path) : other.locate path = tree.locate path := by
  have hstep : other.step tree.linkLimit = tree.step tree.linkLimit :=
    funext fun here => funext fun n => step_relisted h hnamed _ here n
  rw [locate, locate, walk, walk, ← h.linkLimit, ← h.current, hstep]

lemma resolve_relisted (place : Nat) (n : Name) : other.resolve place n = tree.resolve place n := by
  rw [resolve, resolve, ← h.linkLimit, step_relisted h hnamed]

lemma isDirectory_relisted (path : Path) : other.isDirectory path = tree.isDirectory path := by
  have hlocate := locate_relisted h hnamed path
  cases hpath : tree.locate path with
  | error cause => rw [isDirectory, isDirectory, node?, node?, hlocate, hpath]
  | ok place =>
    rw [hpath] at hlocate
    rw [isDirectory_of_locate hpath, isDirectory_of_locate hlocate, isDirectoryAt_relisted h]

lemma isFile_relisted (path : Path) : other.isFile path = tree.isFile path := by
  rw [isFile, isFile, node?, node?, locate_relisted h hnamed path]
  cases tree.locate path with
  | error cause => rfl
  | ok place =>
    rcases h.node_cases place with ⟨_, _, _, _, -, hnode, hagain⟩ | ⟨hnode, -⟩
    · simp only [hnode, hagain]
    · simp only [hnode]

lemma openPath_relisted (path : Path) : other.openPath path = tree.openPath path := by
  rw [openPath, openPath, locate_relisted h hnamed path]
  cases tree.locate path with
  | error cause => rfl
  | ok place =>
    rcases h.node_cases place with ⟨_, _, _, _, -, hnode, hagain⟩ | ⟨hnode, -⟩
    · simp only [hnode, hagain]
    · simp only [hnode]

lemma names_relisted (path : Path) :
    (∃ names others, tree.names path = .ok names ∧ other.names path = .ok others ∧
        names.Perm others) ∨
      ∃ cause, tree.names path = .error cause ∧ other.names path = .error cause := by
  rw [names, names, locate_relisted h hnamed path]
  cases tree.locate path with
  | error cause => exact Or.inr ⟨cause, rfl, rfl⟩
  | ok place => exact namesAt_relisted h place

end

end FileTree

namespace Settings

lemma load_relisted {tree other : FileTree} (h : tree.Relisted other) (hnamed : tree.WellNamed)
    (root : Path) : load other root = load tree root := by
  have hfile : file? other root = file? tree root := by
    rw [file?, file?, show other.isFile = tree.isFile from
      funext fun path => FileTree.isFile_relisted h hnamed path]
  rw [load, load, hfile]
  cases file? tree root with
  | none => rfl
  | some path => simp only [FileTree.readText, FileTree.openPath_relisted h hnamed]

end Settings

end LexRules
