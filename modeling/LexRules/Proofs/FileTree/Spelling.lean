import LexRules.Proofs.FileTree
import LexRules.Proofs.Path.Components

/-! Spellings of a path. Where the path of an entry leads depends on its components alone: steps that
stay where they are change nothing on the way to a name. -/

namespace LexRules

namespace FileTree

variable {tree : FileTree} {here : Nat} {s m n : Name} {names : List Name}

lemma step_void (tree : FileTree) (depth here : Nat) (hs : Path.isVoid s = true) (hm : m ≠ []) :
    tree.step depth here s = .ok here ∨
      ∃ cause, tree.step depth here s = .error cause ∧ tree.step depth here m = .error cause := by
  unfold step
  simp only [Path.isVoid, Bool.or_eq_true, beq_iff_eq] at hs
  split
  · rename_i parent entries access hnode
    rcases hs with rfl | rfl
    · exact Or.inl rfl
    · cases hsearch : access.search with
      | true => exact Or.inl rfl
      | false => exact Or.inr ⟨.denied, rfl, by rw [if_neg hm]; rfl⟩
  · exact Or.inr ⟨.notDirectory, rfl, rfl⟩

lemma walk_cons (tree : FileTree) (here : Nat) (s : Name) (names : List Name) :
    tree.walk here (s :: names) =
      (tree.step tree.linkLimit here s).bind fun place => tree.walk place names := rfl

lemma walk_void (hs : Path.isVoid s = true) (hnil : names ≠ []) (hnames : ∀ m ∈ names, m ≠ []) :
    tree.walk here (s :: names) = tree.walk here names := by
  cases names with
  | nil => exact absurd rfl hnil
  | cons m names =>
    rw [walk_cons]
    have hm := hnames m List.mem_cons_self
    rcases step_void tree tree.linkLimit here hs hm with hok | ⟨cause, herror, hnext⟩
    · rw [hok]
      rfl
    · rw [herror, walk_cons, hnext]
      rfl

lemma walk_segments (segments : List Name) (hn : n ≠ []) (here : Nat) :
    tree.walk here (segments ++ [n]) =
      tree.walk here ((segments.filterMap Path.component?).map Component.text ++ [n]) := by
  induction segments generalizing here with
  | nil => rfl
  | cons s segments ih =>
    rw [List.cons_append, walk_cons, List.filterMap_cons]
    simp only [ih]
    cases hvoid : Path.isVoid s with
    | true =>
      rw [Path.component_void hvoid, ← walk_cons]
      apply walk_void hvoid (by simp)
      intro m hm
      rcases List.mem_append.1 hm with hm | hm
      · obtain ⟨c, hc, rfl⟩ := List.mem_map.1 hm
        exact (Path.isStep_of_mem hc).2
      · exact List.mem_singleton.1 hm ▸ hn
    | false =>
      obtain ⟨c, hc, -, htext⟩ := Path.component_of_not_void hvoid
      rw [hc, List.map_cons, htext]
      rfl

def route (tree : FileTree) (components : List Component) : Except IoCause Nat :=
  tree.walk (if .root ∈ components then 0 else tree.current)
    ((components.filter Component.isStep).map Component.text)

lemma filterMap_leadingSteps (d : Path) :
    (leadingSteps d).filterMap Path.component? = (Path.segments d).filterMap Path.component? := by
  rw [leadingSteps, List.filterMap_filter]
  congr 1
  funext s
  cases s with
  | nil => rfl
  | cons c s => rfl

lemma route_slash_name (tree : FileTree) (d : Path) (hn : Path.IsName n) :
    tree.locate (d ++ Path.slash :: n) = tree.route (Path.components (d ++ Path.slash :: n)) := by
  have hlast : [n].filterMap Path.component? = [.normal n] := by simp [Path.component_name hn]
  rw [locate_slash_name tree d hn, ← walk_append, walk_segments _ hn.ne_nil, filterMap_leadingSteps,
    route, Path.filter_components, Path.segments_slash, Path.segments_name hn, List.filterMap_append,
    hlast, List.map_append, ← origin_slash _ d n, origin]
  simp only [Path.root_mem_components]
  rfl

lemma locate_join_eq_route (tree : FileTree) (dir : Path) (hn : Path.IsName n) :
    tree.locate (Path.join dir n) = tree.route (Path.components (Path.join dir n)) := by
  rcases Path.join_cases dir hn with ⟨-, hjoin⟩ | ⟨d, -, hjoin⟩ | ⟨-, -, hjoin⟩
  · have hlast : [n].filterMap Path.component? = [.normal n] := by simp [Path.component_name hn]
    rw [hjoin, locate_of_ne_nil tree hn.ne_nil, steps_plain hn.getLast_ne, leadingSteps, route,
      Path.filter_components, Path.segments_name hn, hlast, origin]
    simp only [Path.root_mem_components]
    simp [hn.ne_nil, Component.text]
  · rw [hjoin, route_slash_name tree d hn]
  · rw [hjoin, route_slash_name tree dir hn]

lemma walk_eq_ok {place : Nat} (h : tree.walk here names = .ok place) :
    tree.walk here ((names.filterMap Path.component?).map Component.text) = .ok place := by
  induction names generalizing here with
  | nil => exact h
  | cons s names ih =>
    rw [walk_cons] at h
    rw [List.filterMap_cons]
    cases hstep : tree.step tree.linkLimit here s with
    | error cause =>
      rw [hstep] at h
      exact absurd h nofun
    | ok next =>
      rw [hstep] at h
      cases hvoid : Path.isVoid s with
      | true =>
        obtain rfl : here = next := by
          rcases step_void tree tree.linkLimit here hvoid (m := [Path.slash]) (by decide) with
            hok | ⟨cause, herror, -⟩
          · exact Except.ok.inj (hok.symm.trans hstep)
          · exact absurd (herror.symm.trans hstep) nofun
        rw [Path.component_void hvoid]
        exact ih h
      | false =>
        obtain ⟨c, hc, -, htext⟩ := Path.component_of_not_void hvoid
        rw [hc, List.map_cons, htext, walk_cons, hstep]
        exact ih h

lemma route_of_locate {path : Path} {place : Nat} (h : tree.locate path = .ok place) :
    tree.route (Path.components path) = .ok place := by
  have hnil : path ≠ [] := by
    rintro rfl
    exact absurd h nofun
  have hsteps : (steps path).filterMap Path.component? = (Path.segments path).filterMap Path.component? := by
    rw [steps, List.filterMap_append, ← leadingSteps, filterMap_leadingSteps]
    split <;> exact List.append_nil _
  rw [locate_of_ne_nil tree hnil, origin] at h
  rw [route, Path.filter_components, ← hsteps]
  simp only [Path.root_mem_components]
  exact walk_eq_ok h

lemma locate_unique {p q : Path} {place other : Nat} (h : Path.components p = Path.components q)
    (hp : tree.locate p = .ok place) (hq : tree.locate q = .ok other) : other = place := by
  have hroute := route_of_locate hp
  rw [h, route_of_locate hq] at hroute
  exact Except.ok.inj hroute

lemma openPath_congr {p q : Path} (h : tree.locate p = tree.locate q) :
    tree.openPath p = tree.openPath q := by
  rw [openPath, openPath, h]

lemma openPath_join_congr {dir other : Path} (hn : Path.IsName n) (hm : Path.IsName m)
    (h : Path.components (Path.join dir n) = Path.components (Path.join other m)) :
    tree.openPath (Path.join dir n) = tree.openPath (Path.join other m) := by
  apply openPath_congr
  rw [locate_join_eq_route tree dir hn, locate_join_eq_route tree other hm, h]

end FileTree

end LexRules
