import LexRules.Discovery
import LexRules.Proofs.FileTree

/-! The visits of a deep search. One turn of the queue is described once, and what the queue keeps
from turn to turn gives what holds of all visits. -/

namespace LexRules

def Path.depth (path : Path) : Nat := (components path).length

lemma Path.depth_join (dir : Path) {n : Name} (hn : IsName n) :
    depth (join dir n) = depth dir + 1 := by
  simp [depth, components_join dir hn]

namespace Visit

def dir : Visit → Path
  | listed dir _ _ | refused dir _ _ | repeated dir | lost dir _ => dir

def place? : Visit → Option Nat
  | listed _ place _ | refused _ place _ => some place
  | repeated _ | lost _ _ => none

def Reports (tree : FileTree) : Visit → Prop
  | listed dir place names => tree.locate dir = .ok place ∧ tree.namesAt place = .ok names
  | refused dir place cause => tree.locate dir = .ok place ∧ tree.namesAt place = .error cause
  | repeated dir => ∃ place, tree.locate dir = .ok place
  | lost dir cause => tree.locate dir = .error cause

def leave (v : Visit) (unvisited : List Nat) : List Nat :=
  match v.place? with
  | some place => unvisited.erase place
  | none => unvisited

variable {tree : FileTree} {v : Visit} {place : Nat} {unvisited : List Nat}

lemma Reports.locate (hv : v.Reports tree) (hplace : v.place? = some place) :
    tree.locate v.dir = .ok place := by
  cases v with
  | listed dir other names => exact Option.some.inj hplace ▸ hv.1
  | refused dir other cause => exact Option.some.inj hplace ▸ hv.1
  | repeated dir => exact absurd hplace nofun
  | lost dir cause => exact absurd hplace nofun

lemma Reports.eq_listed {names : List Name} (hv : v.Reports tree) (hplace : v.place? = some place)
    (hnames : tree.namesAt place = .ok names) : v = listed v.dir place names := by
  cases v with
  | listed dir other found =>
    obtain rfl := Option.some.inj hplace
    rw [Except.ok.inj (hv.2.symm.trans hnames)]
    rfl
  | refused dir other cause =>
    obtain rfl := Option.some.inj hplace
    exact absurd (hv.2.symm.trans hnames) nofun
  | repeated dir => exact absurd hplace nofun
  | lost dir cause => exact absurd hplace nofun

lemma Reports.eq_refused {cause : IoCause} (hv : v.Reports tree) (hplace : v.place? = some place)
    (hnames : tree.namesAt place = .error cause) : v = refused v.dir place cause := by
  cases v with
  | listed dir other names =>
    obtain rfl := Option.some.inj hplace
    exact absurd (hv.2.symm.trans hnames) nofun
  | refused dir other found =>
    obtain rfl := Option.some.inj hplace
    rw [Except.error.inj (hv.2.symm.trans hnames)]
    rfl
  | repeated dir => exact absurd hplace nofun
  | lost dir cause => exact absurd hplace nofun

lemma leave_subset : v.leave unvisited ⊆ unvisited := by
  rw [leave]
  split
  · exact List.erase_subset
  · exact List.Subset.refl _

lemma mem_leave_of_ne (hmem : place ∈ unvisited) (hplace : v.place? ≠ some place) :
    place ∈ v.leave unvisited := by
  rw [leave]
  split
  · rename_i other hother
    have hne : place ≠ other := fun h => hplace (h ▸ hother)
    exact (List.mem_erase_of_ne hne).2 hmem
  · exact hmem

lemma nodup_leave (h : unvisited.Nodup) : (v.leave unvisited).Nodup := by
  rw [leave]
  split
  · exact h.erase _
  · exact h

lemma not_mem_leave (h : unvisited.Nodup) (hplace : v.place? = some place) :
    place ∉ v.leave unvisited := by
  rw [leave, hplace]
  exact h.not_mem_erase

end Visit

namespace Search

def turn (s : Search) (unvisited : List Nat) (dir : Path) : Visit :=
  match s.tree.locate dir with
  | .error cause => .lost dir cause
  | .ok place =>
    if place ∈ unvisited then
      match s.tree.namesAt place with
      | .error cause => .refused dir place cause
      | .ok names => .listed dir place names
    else .repeated dir

def next (s : Search) : Visit → List Path
  | .listed dir _ names => s.directoriesOf (Path.entries dir names)
  | _ => []

variable {s : Search} {unvisited : List Nat} {dir : Path} {place : Nat}

@[simp] lemma dir_turn : (s.turn unvisited dir).dir = dir := by
  rw [turn]
  split
  · rfl
  · split
    · split <;> rfl
    · rfl

lemma reports_turn : (s.turn unvisited dir).Reports s.tree := by
  rw [turn]
  split
  · assumption
  · rename_i place hlocate
    split
    · split
      · rename_i cause hnames
        exact ⟨hlocate, hnames⟩
      · rename_i names hnames
        exact ⟨hlocate, hnames⟩
    · exact ⟨place, hlocate⟩

lemma mem_of_place_turn (h : (s.turn unvisited dir).place? = some place) : place ∈ unvisited := by
  rw [turn] at h
  split at h
  · exact absurd h (Option.some_ne_none place).symm
  · split at h
    · rename_i other _ hmem
      split at h <;> exact Option.some.inj h ▸ hmem
    · exact absurd h (Option.some_ne_none place).symm

lemma place_turn (hlocate : s.tree.locate dir = .ok place) (hmem : place ∈ unvisited) :
    (s.turn unvisited dir).place? = some place := by
  simp only [turn, hlocate, if_pos hmem]
  split <;> rfl

lemma visits_cons (s : Search) (unvisited : List Nat) (dir : Path) (pending : List Path) :
    s.visits unvisited (dir :: pending) =
      s.turn unvisited dir :: s.visits ((s.turn unvisited dir).leave unvisited)
        (pending ++ s.next (s.turn unvisited dir)) := by
  rw [visits]
  cases hlocate : s.tree.locate dir with
  | error cause => simp [turn, hlocate, Visit.leave, Visit.place?, next]
  | ok place =>
    by_cases hmem : place ∈ unvisited
    · cases hnames : s.tree.namesAt place <;>
        simp [turn, hlocate, hmem, hnames, Visit.leave, Visit.place?, next]
    · simp [turn, hlocate, hmem, Visit.leave, Visit.place?, next]

@[elab_as_elim]
lemma visits_induction {motive : List Nat → List Path → Prop} (s : Search)
    (nil : ∀ unvisited, motive unvisited [])
    (cons : ∀ unvisited dir pending,
      motive ((s.turn unvisited dir).leave unvisited) (pending ++ s.next (s.turn unvisited dir)) →
        motive unvisited (dir :: pending))
    (unvisited : List Nat) (queue : List Path) : motive unvisited queue := by
  fun_induction visits s unvisited queue with
  | case1 unvisited => exact nil unvisited
  | case2 unvisited dir pending cause hlocate ih =>
    refine cons unvisited dir pending ?_
    simpa [turn, hlocate, Visit.leave, Visit.place?, next] using ih
  | case3 unvisited dir pending place hlocate hmem _ _ cause hnames ih =>
    refine cons unvisited dir pending ?_
    simpa [turn, hlocate, hmem, hnames, Visit.leave, Visit.place?, next] using ih
  | case4 unvisited dir pending place hlocate hmem _ _ names hnames ih =>
    refine cons unvisited dir pending ?_
    simpa [turn, hlocate, hmem, hnames, Visit.leave, Visit.place?, next] using ih
  | case5 unvisited dir pending place hlocate hmem ih =>
    refine cons unvisited dir pending ?_
    simpa [turn, hlocate, hmem, Visit.leave, Visit.place?, next] using ih

lemma visits_forall {P : Path → Prop}
    (hnext : ∀ v : Visit, v.Reports s.tree → P v.dir → ∀ child ∈ s.next v, P child)
    (unvisited : List Nat) (queue : List Path) (hqueue : ∀ dir ∈ queue, P dir) :
    ∀ v ∈ s.visits unvisited queue, v.Reports s.tree ∧ P v.dir := by
  induction unvisited, queue using s.visits_induction with
  | nil unvisited => simp [visits]
  | cons unvisited dir pending ih =>
    have hdir : P (s.turn unvisited dir).dir := by
      rw [dir_turn]
      exact hqueue dir List.mem_cons_self
    rw [visits_cons]
    intro v hv
    rcases List.mem_cons.1 hv with rfl | hv
    · exact ⟨reports_turn, hdir⟩
    · refine ih (fun child hchild => ?_) v hv
      rcases List.mem_append.1 hchild with hold | hnew
      · exact hqueue child (List.mem_cons_of_mem dir hold)
      · exact hnext _ reports_turn hdir child hnew

lemma visits_reports {queue : List Path} {v : Visit} (hv : v ∈ s.visits unvisited queue) :
    v.Reports s.tree :=
  (visits_forall (P := fun _ => True) (fun _ _ _ _ _ => trivial) _ _ (fun _ _ => trivial) v hv).1

lemma visits_queued (unvisited : List Nat) (queue : List Path) (hdir : dir ∈ queue) :
    ∃ v ∈ s.visits unvisited queue, v.dir = dir := by
  induction unvisited, queue using s.visits_induction with
  | nil unvisited => exact absurd hdir List.not_mem_nil
  | cons unvisited first pending ih =>
    rw [visits_cons]
    rcases List.mem_cons.1 hdir with rfl | hdir
    · exact ⟨_, List.mem_cons_self, dir_turn⟩
    · obtain ⟨v, hv, heq⟩ := ih (List.mem_append_left _ hdir)
      exact ⟨v, List.mem_cons_of_mem _ hv, heq⟩

lemma visits_child (unvisited : List Nat) (queue : List Path) {v : Visit}
    (hv : v ∈ s.visits unvisited queue) (hdir : dir ∈ s.next v) :
    ∃ w ∈ s.visits unvisited queue, w.dir = dir := by
  induction unvisited, queue using s.visits_induction with
  | nil unvisited => simp [visits] at hv
  | cons unvisited first pending ih =>
    rw [visits_cons] at hv ⊢
    have hlater : ∃ w ∈ s.visits ((s.turn unvisited first).leave unvisited)
        (pending ++ s.next (s.turn unvisited first)), w.dir = dir := by
      rcases List.mem_cons.1 hv with rfl | hv
      · exact visits_queued _ _ (List.mem_append_right pending hdir)
      · exact ih hv
    obtain ⟨w, hw, heq⟩ := hlater
    exact ⟨w, List.mem_cons_of_mem _ hw, heq⟩

lemma visits_origin (unvisited : List Nat) (queue : List Path) {v : Visit}
    (hv : v ∈ s.visits unvisited queue) :
    v.dir ∈ queue ∨ ∃ w ∈ s.visits unvisited queue, v.dir ∈ s.next w := by
  induction unvisited, queue using s.visits_induction with
  | nil unvisited => simp [visits] at hv
  | cons unvisited first pending ih =>
    rw [visits_cons] at hv ⊢
    rcases List.mem_cons.1 hv with rfl | hv
    · rw [dir_turn]
      exact Or.inl List.mem_cons_self
    rcases ih hv with hqueue | ⟨w, hw, hnext⟩
    · rcases List.mem_append.1 hqueue with hpending | hnext
      · exact Or.inl (List.mem_cons_of_mem _ hpending)
      · exact Or.inr ⟨_, List.mem_cons_self, hnext⟩
    · exact Or.inr ⟨w, List.mem_cons_of_mem _ hw, hnext⟩

lemma visits_place_mem (unvisited : List Nat) (queue : List Path) {v : Visit}
    (hv : v ∈ s.visits unvisited queue) (hplace : v.place? = some place) : place ∈ unvisited := by
  induction unvisited, queue using s.visits_induction with
  | nil unvisited => simp [visits] at hv
  | cons unvisited dir pending ih =>
    rw [visits_cons] at hv
    rcases List.mem_cons.1 hv with rfl | hv
    · exact mem_of_place_turn hplace
    · exact Visit.leave_subset (ih hv)

lemma visits_places (unvisited : List Nat) (queue : List Path) (hunvisited : unvisited.Nodup) :
    (s.visits unvisited queue).Pairwise fun v w =>
      ∀ place, v.place? = some place → w.place? ≠ some place := by
  induction unvisited, queue using s.visits_induction with
  | nil unvisited => simp [visits]
  | cons unvisited dir pending ih =>
    rw [visits_cons]
    refine List.pairwise_cons.2 ⟨?_, ih (Visit.nodup_leave hunvisited)⟩
    intro w hw place hplace hagain
    exact Visit.not_mem_leave hunvisited hplace (visits_place_mem _ _ hw hagain)

/-- A queue of a search that goes nearest first: no directory before one less deep, and no two
directories more than a step apart. -/
structure Leveled (queue : List Path) : Prop where
  sorted : queue.Pairwise fun p q => Path.depth p ≤ Path.depth q
  close : ∀ p ∈ queue, ∀ q ∈ queue, Path.depth q ≤ Path.depth p + 1

lemma Leveled.head_le {dir : Path} {pending : List Path} (h : Leveled (dir :: pending)) {p : Path}
    (hp : p ∈ dir :: pending) : Path.depth dir ≤ Path.depth p := by
  rcases List.mem_cons.1 hp with rfl | hp
  · exact Nat.le_refl _
  · exact (List.pairwise_cons.1 h.sorted).1 p hp

lemma Leveled.append {dir : Path} {pending children : List Path} (h : Leveled (dir :: pending))
    (hchildren : ∀ child ∈ children, Path.depth child = Path.depth dir + 1) :
    Leveled (pending ++ children) := by
  have hpending : ∀ p ∈ pending, Path.depth dir ≤ Path.depth p ∧ Path.depth p ≤ Path.depth dir + 1 := by
    intro p hp
    have hmem := List.mem_cons_of_mem dir hp
    exact ⟨h.head_le hmem, h.close dir List.mem_cons_self p hmem⟩
  have hbounds : ∀ p ∈ pending ++ children,
      Path.depth dir ≤ Path.depth p ∧ Path.depth p ≤ Path.depth dir + 1 := by
    intro p hp
    rcases List.mem_append.1 hp with hp | hp
    · exact hpending p hp
    · have := hchildren p hp
      omega
  constructor
  · refine List.pairwise_append.2 ⟨(List.pairwise_cons.1 h.sorted).2, ?_, ?_⟩
    · refine List.pairwise_of_forall_mem_list fun p hp q hq => ?_
      exact Nat.le_of_eq ((hchildren p hp).trans (hchildren q hq).symm)
    · intro p hp q hq
      rw [hchildren q hq]
      exact (hpending p hp).2
  · intro p hp q hq
    have := hbounds p hp
    have := hbounds q hq
    omega

lemma mem_next {v : Visit} {child : Path} : child ∈ s.next v ↔ ∃ place names n,
    v = .listed v.dir place names ∧ n ∈ names ∧ child = Path.join v.dir n ∧
      s.tree.isDirectory child = true ∧ s.excludes child true = false := by
  cases v with
  | listed dir place names =>
    simp only [next, directoriesOf, Path.entries, List.mem_filter, List.mem_map, Bool.and_eq_true,
      Bool.not_eq_true', Visit.dir]
    constructor
    · rintro ⟨⟨n, hn, rfl⟩, hdirectory, hkept⟩
      exact ⟨place, names, n, rfl, hn, rfl, hdirectory, hkept⟩
    · rintro ⟨_, _, n, heq, hn, rfl, hdirectory, hkept⟩
      injection heq with _ _ hnames
      exact ⟨⟨n, hnames ▸ hn, rfl⟩, hdirectory, hkept⟩
  | refused dir place cause => simp [next]
  | repeated dir => simp [next]
  | lost dir cause => simp [next]

section WellNamed

variable (hnamed : s.tree.WellNamed)

include hnamed

lemma depth_next {v : Visit} (hv : v.Reports s.tree) {child : Path} (hchild : child ∈ s.next v) :
    Path.depth child = Path.depth v.dir + 1 := by
  obtain ⟨place, names, n, heq, hn, rfl, -, -⟩ := mem_next.1 hchild
  rw [heq] at hv
  exact Path.depth_join _ ((hnamed.listing hv.2).2 n hn)

lemma leveled_turn {pending : List Path} (h : Leveled (dir :: pending)) :
    Leveled (pending ++ s.next (s.turn unvisited dir)) := by
  refine h.append fun child hchild => ?_
  rw [depth_next hnamed reports_turn hchild, dir_turn]

lemma depth_visits (least : Nat) (unvisited : List Nat) (queue : List Path)
    (hqueue : ∀ dir ∈ queue, least ≤ Path.depth dir) :
    ∀ v ∈ s.visits unvisited queue, least ≤ Path.depth v.dir := by
  refine fun v hv => (visits_forall (P := fun dir => least ≤ Path.depth dir) ?_ _ _ hqueue v hv).2
  intro v hv hdir child hchild
  have := depth_next hnamed hv hchild
  omega

lemma visits_sorted (unvisited : List Nat) (queue : List Path) (h : Leveled queue) :
    (s.visits unvisited queue).Pairwise fun v w => Path.depth v.dir ≤ Path.depth w.dir := by
  induction unvisited, queue using s.visits_induction with
  | nil unvisited => simp [visits]
  | cons unvisited dir pending ih =>
    have hturn : Leveled (pending ++ s.next (s.turn unvisited dir)) := leveled_turn hnamed h
    rw [visits_cons]
    refine List.pairwise_cons.2 ⟨?_, ih hturn⟩
    rw [dir_turn]
    refine depth_visits hnamed _ _ _ fun child hchild => ?_
    rcases List.mem_append.1 hchild with hold | hnew
    · exact h.head_le (List.mem_cons_of_mem dir hold)
    · rw [depth_next hnamed reports_turn hnew, dir_turn]
      exact Nat.le_succ _

lemma visits_pending (unvisited : List Nat) (queue : List Path) (h : Leveled queue) {path : Path}
    (hpath : path ∈ queue) (hlocate : s.tree.locate path = .ok place) (hplace : place ∈ unvisited) :
    ∃ v ∈ s.visits unvisited queue, v.place? = some place ∧ Path.depth v.dir ≤ Path.depth path := by
  induction unvisited, queue using s.visits_induction with
  | nil unvisited => exact absurd hpath List.not_mem_nil
  | cons unvisited dir pending ih =>
    rw [visits_cons]
    by_cases hnow : (s.turn unvisited dir).place? = some place
    · refine ⟨_, List.mem_cons_self, hnow, ?_⟩
      rw [dir_turn]
      exact h.head_le hpath
    · have hlater : path ∈ pending := by
        refine (List.mem_cons.1 hpath).resolve_left fun heq => hnow ?_
        exact place_turn (heq ▸ hlocate) hplace
      obtain ⟨v, hv, hfound⟩ := ih (leveled_turn hnamed h)
        (List.mem_append_left _ hlater) (Visit.mem_leave_of_ne hplace hnow)
      exact ⟨v, List.mem_cons_of_mem _ hv, hfound⟩

lemma visits_next (unvisited : List Nat) (queue : List Path) (h : Leveled queue) {v : Visit}
    (hv : v ∈ s.visits unvisited queue) {child : Path} (hchild : child ∈ s.next v)
    (hlocate : s.tree.locate child = .ok place) (hplace : place ∈ unvisited) :
    ∃ w ∈ s.visits unvisited queue, w.place? = some place ∧ Path.depth w.dir ≤ Path.depth child := by
  induction unvisited, queue using s.visits_induction with
  | nil unvisited => simp [visits] at hv
  | cons unvisited dir pending ih =>
    have hdepth : Path.depth dir ≤ Path.depth child := by
      have hall := depth_visits hnamed (Path.depth dir) unvisited _ (fun p hp => h.head_le hp) v hv
      have := depth_next hnamed (visits_reports hv) hchild
      omega
    have hlevels : Leveled (pending ++ s.next (s.turn unvisited dir)) := leveled_turn hnamed h
    rw [visits_cons] at hv ⊢
    by_cases hnow : (s.turn unvisited dir).place? = some place
    · exact ⟨_, List.mem_cons_self, hnow, dir_turn.symm ▸ hdepth⟩
    · have hleft := Visit.mem_leave_of_ne hplace hnow
      rcases List.mem_cons.1 hv with rfl | hv
      · obtain ⟨w, hw, hfound⟩ := visits_pending hnamed _ _ hlevels
          (List.mem_append_right pending hchild) hlocate hleft
        exact ⟨w, List.mem_cons_of_mem _ hw, hfound⟩
      · obtain ⟨w, hw, hfound⟩ := ih hlevels hv hleft
        exact ⟨w, List.mem_cons_of_mem _ hw, hfound⟩

end WellNamed

end Search

end LexRules
