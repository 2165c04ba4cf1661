import LexRules.Proofs.Discovery.Plain

/-! The work queue of a deep search, as it runs by itself: the places that were visited, the
directories still to come, and one turn after another until none is left. -/

namespace LexRules

namespace Search

structure Queue where
  visited : List Nat
  pending : List Path

namespace Queue

def initial (s : Search) (root : Path) : Queue :=
  ⟨[], if s.tree.isDirectory root then [root] else []⟩

def turn? (s : Search) : Queue → Option (Visit × Queue)
  | ⟨_, []⟩ => none
  | ⟨visited, dir :: pending⟩ =>
    match s.tree.locate dir with
    | .error cause => some (.lost dir cause, ⟨visited, pending⟩)
    | .ok place =>
      if place ∈ visited then some (.repeated dir, ⟨visited, pending⟩)
      else match s.tree.namesAt place with
        | .error cause => some (.refused dir place cause, ⟨place :: visited, pending⟩)
        | .ok names => some (.listed dir place names,
            ⟨place :: visited, pending ++ s.directoriesOf (Path.entries dir names)⟩)

inductive Drains (s : Search) : Queue → List Visit → Prop
  | empty {q : Queue} : q.turn? s = none → Drains s q []
  | turn {q next : Queue} {v : Visit} {visits : List Visit} : q.turn? s = some (v, next) →
      Drains s next visits → Drains s q (v :: visits)

lemma Drains.unique {s : Search} {q : Queue} {visits others : List Visit} (h : Drains s q visits)
    (hother : Drains s q others) : others = visits := by
  induction h generalizing others with
  | empty hend =>
    cases hother with
    | empty _ => rfl
    | turn hturn _ => exact absurd (hend.symm.trans hturn) nofun
  | turn hturn _ ih =>
    cases hother with
    | empty hend => exact absurd (hend.symm.trans hturn) nofun
    | turn hagain hrest =>
      obtain ⟨rfl, rfl⟩ := Prod.mk.inj (Option.some.inj (hagain.symm.trans hturn))
      rw [ih hrest]

def mark (v : Visit) (visited : List Nat) : List Nat :=
  match v.place? with
  | some place => place :: visited
  | none => visited

end Queue

structure Ends (s : Search) (root : Path) (visits : List Visit) : Prop where
  drains : Queue.Drains s (.initial s root) visits
  only : ∀ others, Queue.Drains s (.initial s root) others → others = visits
  directories : ∀ v ∈ visits, s.tree.isDirectory v.dir = true ∧ ∃ place, s.tree.locate v.dir = .ok place
  once : (visits.filterMap Visit.place?).Nodup
  /-- Each turn beyond the first is for an entry of its own. -/
  bounded : visits.length ≤ 1 + s.tree.allEntries.length
  gains : ∀ (f : Finder) (d : Findings), f.search s.tree root = .ok s → f.deep s.tree root = .ok d →
    d.found = visits.flatMap (fun v => (s.gain v).found) ∧
      d.faults = visits.flatMap (fun v => (s.gain v).faults)
  fails : ∀ (f : Finder) (fault : Fault), f.search s.tree root = .ok s →
    f.deep s.tree root = .error fault → ∃ place cause,
      visits.head? = some (.refused root place cause) ∧ fault = .unreadable root cause

variable {s : Search} {root : Path} {unvisited visited : List Nat} {queue : List Path}

/-- The places visited and those not visited are all directories there are, and tell them apart. -/
def Complements (s : Search) (unvisited visited : List Nat) : Prop :=
  ∀ place, s.tree.isDirectoryAt place = true → (place ∈ unvisited ↔ place ∉ visited)

lemma turn_eq (hcomplements : s.Complements unvisited visited) {dir : Path}
    (hdir : s.tree.isDirectory dir = true) (pending : List Path) :
    Queue.turn? s ⟨visited, dir :: pending⟩ = some (s.turn unvisited dir,
      ⟨Queue.mark (s.turn unvisited dir) visited, pending ++ s.next (s.turn unvisited dir)⟩) := by
  obtain ⟨place, hlocate, hplace⟩ := FileTree.locate_of_isDirectory hdir
  rw [Queue.turn?]
  -- The turn asks whether the place is among those left, the queue whether it is among those visited.
  by_cases hmem : place ∈ visited
  · have hnot : place ∉ unvisited := fun h => (hcomplements place hplace).1 h hmem
    simp [turn, hlocate, hmem, hnot, Queue.mark, Visit.place?, next]
  · have hyet : place ∈ unvisited := (hcomplements place hplace).2 hmem
    cases hnames : s.tree.namesAt place <;>
      simp [turn, hlocate, hmem, hyet, hnames, Queue.mark, Visit.place?, next]

lemma Complements.turn (h : s.Complements unvisited visited) (hnodup : unvisited.Nodup) (dir : Path) :
    s.Complements ((s.turn unvisited dir).leave unvisited) (Queue.mark (s.turn unvisited dir) visited) := by
  intro place hplace
  rw [Visit.leave, Queue.mark]
  cases (s.turn unvisited dir).place? with
  | none => exact h place hplace
  | some other =>
    simp only [hnodup.mem_erase_iff, List.mem_cons, not_or, h place hplace, ne_eq]

lemma drains_visits (hcomplements : s.Complements unvisited visited) (hnodup : unvisited.Nodup)
    (hqueue : ∀ dir ∈ queue, s.tree.isDirectory dir = true) :
    Queue.Drains s ⟨visited, queue⟩ (s.visits unvisited queue) := by
  induction unvisited, queue using s.visits_induction generalizing visited with
  | nil unvisited =>
    rw [visits]
    exact .empty rfl
  | cons unvisited dir pending ih =>
    obtain ⟨hdir, hpending⟩ := List.forall_mem_cons.1 hqueue
    rw [visits_cons]
    refine .turn (turn_eq hcomplements hdir pending)
      (ih (hcomplements.turn hnodup dir) (Visit.nodup_leave hnodup) ?_)
    refine List.forall_mem_append.2 ⟨hpending, fun child hchild => ?_⟩
    obtain ⟨_, _, _, -, -, -, hdirectory, -⟩ := mem_next.1 hchild
    exact hdirectory

def weight (s : Search) (places : List Nat) : Nat :=
  (places.flatMap s.tree.entriesAt).length

lemma weight_erase {place : Nat} (h : place ∈ unvisited) :
    (s.tree.entriesAt place).length + s.weight (unvisited.erase place) = s.weight unvisited := by
  have hperm := (List.perm_cons_erase h).flatMap_right s.tree.entriesAt
  rw [weight, weight, hperm.length_eq, List.flatMap_cons, List.length_append]

lemma length_next {v : Visit} (hv : v.Reports s.tree) :
    match v.place? with
    | none => s.next v = []
    | some place => (s.next v).length ≤ (s.tree.entriesAt place).length := by
  cases v with
  | listed dir place names =>
    obtain ⟨-, hnames⟩ := hv
    have hlength : names.length = (s.tree.entriesAt place).length := by
      rw [(FileTree.namesAt_eq_ok_iff.1 hnames).2, List.length_map]
    calc (s.next (.listed dir place names)).length
        ≤ (Path.entries dir names).length := List.length_filter_le _ _
      _ = (s.tree.entriesAt place).length := by rw [Path.entries, List.length_map, hlength]
  | refused dir place cause => exact Nat.zero_le _
  | repeated dir => rfl
  | lost dir cause => rfl

/-- What a turn puts into the queue is paid for by the place that it visits. -/
lemma length_next_turn_le (s : Search) (unvisited : List Nat) (dir : Path) :
    (s.next (s.turn unvisited dir)).length + s.weight ((s.turn unvisited dir).leave unvisited) ≤
      s.weight unvisited := by
  have hnext := length_next (v := s.turn unvisited dir) reports_turn
  rw [Visit.leave]
  cases hplace : (s.turn unvisited dir).place? with
  | none =>
    rw [hplace] at hnext
    rw [show s.next (s.turn unvisited dir) = [] from hnext]
    exact Nat.le_of_eq (Nat.zero_add _)
  | some place =>
    rw [hplace] at hnext
    rw [← weight_erase (mem_of_place_turn hplace)]
    exact Nat.add_le_add_right hnext _

lemma length_visits_le (s : Search) (unvisited : List Nat) (queue : List Path) :
    (s.visits unvisited queue).length ≤ queue.length + s.weight unvisited := by
  induction unvisited, queue using s.visits_induction with
  | nil unvisited => simp [visits]
  | cons unvisited dir pending ih =>
    have hnext := length_next_turn_le s unvisited dir
    rw [visits_cons, List.length_cons, List.length_cons]
    rw [List.length_append] at ih
    omega

lemma weight_all (s : Search) : s.weight (List.range s.tree.nodes.size) = s.tree.allEntries.length := by
  simp [weight, FileTree.allEntries, List.length_flatMap]

lemma complements_all (s : Search) : s.Complements (List.range s.tree.nodes.size) [] := fun _ hplace =>
  iff_of_true (history_unvisited hplace) List.not_mem_nil

lemma head_history {fault : Fault} (hroot : s.tree.isDirectory root = true)
    (h : s.deep root = .error fault) : ∃ place cause,
      (s.history root).head? = some (.refused root place cause) ∧ fault = .unreadable root cause := by
  obtain ⟨place, hlocate, -⟩ := FileTree.locate_of_isDirectory hroot
  obtain ⟨later, hcons, -⟩ := history_eq_turn hroot hlocate
  rw [turn_eq_of_names hroot hlocate] at hcons
  rw [deep_eq hroot, FileTree.names_of_locate hlocate] at h
  cases hnames : s.tree.namesAt place with
  | error cause =>
    rw [hnames] at h hcons
    exact ⟨place, cause, by rw [hcons, List.head?_cons], (Except.error.inj h).symm⟩
  | ok names =>
    rw [hnames] at h
    exact absurd h nofun

lemma once_history (s : Search) (root : Path) : ((s.history root).filterMap Visit.place?).Nodup := by
  rw [List.Nodup, List.pairwise_filterMap]
  refine (history_places s root).imp fun {v w} hplaces place hplace other hother heq => ?_
  subst heq
  exact hplaces place hplace hother

theorem deep_ends (s : Search) (root : Path) : ∃ visits, s.Ends root visits := by
  cases hroot : s.tree.isDirectory root with
  | true =>
    have hdrains : Queue.Drains s (.initial s root) (s.history root) := by
      rw [Queue.initial, if_pos hroot]
      exact drains_visits (complements_all s) List.nodup_range (List.forall_mem_singleton.2 hroot)
    refine ⟨s.history root, hdrains, fun _ => hdrains.unique, fun v hv => ?_, once_history s root, ?_,
      fun f d hsearch hdeep => ?_, fun f fault hsearch hdeep => ?_⟩
    · obtain ⟨place, hlocate, -⟩ := FileTree.locate_of_isDirectory (history_located hroot hv)
      exact ⟨history_located hroot hv, place, hlocate⟩
    · rw [← weight_all]
      exact length_visits_le s _ [root]
    · exact deep_eq_ok ((deep_of_search hroot hsearch).symm.trans hdeep)
    · exact head_history hroot ((deep_of_search hroot hsearch).symm.trans hdeep)
  | false =>
    have hdrains : Queue.Drains s (.initial s root) [] := by
      rw [Queue.initial, hroot]
      exact .empty rfl
    refine ⟨[], hdrains, fun _ => hdrains.unique, List.forall_mem_nil _, List.nodup_nil, Nat.zero_le _,
      fun f d _ hdeep => ?_, fun f fault _ hdeep => ?_⟩
    · rw [Finder.deep, hroot] at hdeep
      obtain rfl := Except.ok.inj hdeep
      exact ⟨rfl, rfl⟩
    · rw [Finder.deep, hroot] at hdeep
      cases hdeep

end Search

end LexRules
