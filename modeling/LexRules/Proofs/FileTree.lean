import LexRules.FileTree
import LexRules.Proofs.Path

/-! Places in a file tree: where the entry of a directory leads depends on the place of the
directory alone, however the path to it is spelled. -/

namespace LexRules.FileTree

def isDirectoryAt (tree : FileTree) (place : Nat) : Bool :=
  match tree.nodes[place]? with
  | some (.directory ..) => true
  | _ => false

def entriesAt (tree : FileTree) (place : Nat) : List (Name × Nat) :=
  match tree.nodes[place]? with
  | some (.directory _ entries _) => entries
  | _ => []

def accessAt (tree : FileTree) (place : Nat) : Access :=
  match tree.nodes[place]? with
  | some (.directory _ _ access) => access
  | _ => .shut

def parentAt (tree : FileTree) (place : Nat) : Nat :=
  match tree.nodes[place]? with
  | some (.directory parent ..) => parent
  | _ => 0

def isLinkAt (tree : FileTree) (place : Nat) : Bool :=
  match tree.nodes[place]? with
  | some (.link _) => true
  | _ => false

def resolve (tree : FileTree) (place : Nat) (n : Name) : Except IoCause Nat :=
  tree.step tree.linkLimit place n

def WellNamed (tree : FileTree) : Prop :=
  ∀ place, ((tree.entriesAt place).map Prod.fst).Nodup ∧ ∀ e ∈ tree.entriesAt place, Path.IsName e.1

section

variable {tree : FileTree} {place next : Nat} {path : Path} {names : List Name} {n : Name}
  {r : Nat ⊕ Path}

lemma isDirectory_of_locate (h : tree.locate path = .ok place) :
    tree.isDirectory path = tree.isDirectoryAt place := by
  have hnode : tree.node? path = tree.nodes[place]? := by rw [node?, h]
  exact congrArg (fun node => match node with
    | some (.directory ..) => true
    | _ => false) hnode

lemma isDirectoryAt_iff : tree.isDirectoryAt place = true ↔
    ∃ parent entries access, tree.nodes[place]? = some (.directory parent entries access) := by
  rw [isDirectoryAt]
  constructor
  · intro h
    split at h
    · rename_i parent entries access hnode
      exact ⟨parent, entries, access, hnode⟩
    · exact absurd h nofun
  · rintro ⟨parent, entries, locked, hnode⟩
    rw [hnode]

lemma locate_of_isDirectory (h : tree.isDirectory path = true) :
    ∃ place, tree.locate path = .ok place ∧ tree.isDirectoryAt place = true := by
  cases hlocate : tree.locate path with
  | error cause => simp [isDirectory, node?, hlocate] at h
  | ok place => exact ⟨place, rfl, isDirectory_of_locate hlocate ▸ h⟩

lemma names_of_locate (h : tree.locate path = .ok place) : tree.names path = tree.namesAt place := by
  rw [names, h]
  rfl

lemma locate_of_names {names : List Name} (h : tree.names path = .ok names) :
    ∃ place, tree.locate path = .ok place ∧ tree.namesAt place = .ok names := by
  rw [FileTree.names] at h
  cases hlocate : tree.locate path with
  | error cause =>
    rw [hlocate] at h
    exact absurd h nofun
  | ok place =>
    rw [hlocate] at h
    exact ⟨place, rfl, h⟩

lemma lt_size_of_isDirectoryAt (h : tree.isDirectoryAt place = true) : place < tree.nodes.size := by
  obtain ⟨parent, entries, access, hnode⟩ := isDirectoryAt_iff.1 h
  exact (Array.getElem?_eq_some_iff.1 hnode).1

lemma isDirectoryAt_of_entry (h : (n, next) ∈ tree.entriesAt place) :
    tree.isDirectoryAt place = true := by
  rw [entriesAt] at h
  split at h
  · rename_i parent entries access hnode
    exact isDirectoryAt_iff.2 ⟨parent, entries, access, hnode⟩
  · exact absurd h List.not_mem_nil

lemma namesAt_eq_ok_iff : tree.namesAt place = .ok names ↔
    (tree.accessAt place).list = true ∧ names = (tree.entriesAt place).map Prod.fst := by
  unfold namesAt accessAt entriesAt
  rcases tree.nodes[place]? with _ | (_ | ⟨parent, entries, ⟨list, search⟩⟩ | _ | _)
  case some.directory => cases list <;> simp [eq_comm]
  all_goals simp [Access.shut]

lemma namesAt_of_listable (h : (tree.accessAt place).list = true) :
    tree.namesAt place = .ok ((tree.entriesAt place).map Prod.fst) :=
  namesAt_eq_ok_iff.2 ⟨h, rfl⟩

lemma namesAt_of_unlistable (hdirectory : tree.isDirectoryAt place = true)
    (h : (tree.accessAt place).list = false) : tree.namesAt place = .error .denied := by
  obtain ⟨parent, entries, access, hnode⟩ := isDirectoryAt_iff.1 hdirectory
  rw [accessAt, hnode] at h
  rw [namesAt, hnode]
  simp only [h, Bool.false_eq_true, if_false]

lemma isDirectoryAt_of_names (h : tree.namesAt place = .ok names) :
    tree.isDirectoryAt place = true := by
  rw [namesAt] at h
  split at h
  · rename_i parent entries access hnode
    exact isDirectoryAt_iff.2 ⟨parent, entries, access, hnode⟩
  · exact absurd h nofun

lemma mem_listing_iff (h : tree.namesAt place = .ok names) :
    n ∈ names ↔ ∃ next, (n, next) ∈ tree.entriesAt place := by
  rw [(namesAt_eq_ok_iff.1 h).2]
  simp

lemma WellNamed.listing (hnamed : tree.WellNamed) (h : tree.namesAt place = .ok names) :
    names.Nodup ∧ ∀ n ∈ names, Path.IsName n := by
  rw [(namesAt_eq_ok_iff.1 h).2]
  exact ⟨(hnamed place).1, List.forall_mem_map.2 (hnamed place).2⟩

lemma WellNamed.isName (hnamed : tree.WellNamed) (h : tree.names path = .ok names) (hn : n ∈ names) :
    Path.IsName n := by
  obtain ⟨place, -, hnames⟩ := locate_of_names h
  exact (hnamed.listing hnames).2 n hn

instance (tree : FileTree) : Decidable tree.WellNamed :=
  decidable_of_iff (∀ place, place < tree.nodes.size → ((tree.entriesAt place).map Prod.fst).Nodup ∧
      ∀ e ∈ tree.entriesAt place, Path.IsName e.1) <| by
    refine ⟨fun h place => ?_, fun h place _ => h place⟩
    by_cases hplace : place < tree.nodes.size
    · exact h place hplace
    · rw [entriesAt, Array.getElem?_eq_none (Nat.le_of_not_lt hplace)]
      exact ⟨List.nodup_nil, List.forall_mem_nil _⟩

lemma mem_of_entry {entries : List (Name × Nat)} (h : entry? entries n = some next) :
    (n, next) ∈ entries := by
  obtain ⟨⟨m, other⟩, hfind, rfl⟩ := Option.map_eq_some_iff.1 h
  have hname := List.find?_some hfind
  rw [beq_iff_eq] at hname
  exact hname ▸ List.mem_of_find?_eq_some hfind

lemma entry_of_nodup {entries : List (Name × Nat)} (hnodup : (entries.map Prod.fst).Nodup)
    (h : (n, next) ∈ entries) : entry? entries n = some next := by
  induction entries with
  | nil => exact absurd h List.not_mem_nil
  | cons e entries ih =>
    obtain ⟨hfresh, hrest⟩ := List.nodup_cons.1 hnodup
    unfold entry?
    rw [List.find?_cons]
    rcases List.mem_cons.1 h with rfl | h
    · simp
    · have hne : (e.1 == n) = false := by
        rw [beq_eq_false_iff_ne]
        rintro rfl
        exact hfresh (List.mem_map.2 ⟨_, h, rfl⟩)
      rw [hne]
      exact ih hrest h

/-- Where a name leads from a node as long as no link is followed: to a place, or to the target of a
link. -/
def glance (tree : FileTree) (here : Nat) (n : Name) : Except IoCause (Nat ⊕ Path) :=
  match tree.nodes[here]? with
  | some (.directory parent entries access) =>
    if n = [] then .ok (.inl here)
    else if !access.search then .error .denied
    else if n = [Path.dot] then .ok (.inl here)
    else if n = [Path.dot, Path.dot] then .ok (.inl parent)
    else match entry? entries n with
      | none => .error .notFound
      | some id =>
        match tree.nodes[id]? with
        | some (.link target) => .ok (.inr target)
        | _ => .ok (.inl id)
  | _ => .error .notDirectory

lemma step_eq_glance (tree : FileTree) (depth here : Nat) (n : Name) :
    tree.step depth here n = match tree.glance here n, depth with
      | .error cause, _ => .error cause
      | .ok (.inl place), _ => .ok place
      | .ok (.inr _), 0 => .error .tooManyLinks
      | .ok (.inr target), depth + 1 =>
        (steps target).foldlM (tree.step depth) (origin here target) := by
  conv_lhs => unfold step
  unfold glance
  rcases tree.nodes[here]? with _ | (_ | ⟨parent, entries, access⟩ | _ | _)
  case some.directory =>
    dsimp only
    split_ifs
    · rfl
    · rfl
    · rfl
    · rfl
    · cases entry? entries n with
      | none => rfl
      | some id =>
        dsimp only
        rcases tree.nodes[id]? with _ | (_ | _ | _ | _)
        case some.link => cases depth <;> rfl
        all_goals rfl
  all_goals rfl

/-- Where a step ends that follows no link. -/
inductive Lands (tree : FileTree) (here : Nat) (n : Name) : Nat → Prop
  | here : ¬ Path.IsName n → Lands tree here n here
  | parent : ¬ Path.IsName n → Lands tree here n (tree.parentAt here)
  | entry {id : Nat} : (n, id) ∈ tree.entriesAt here → tree.isLinkAt id = false →
      Lands tree here n id

lemma Lands.entry_of_isName (h : tree.Lands place n next) (hname : Path.IsName n) :
    (n, next) ∈ tree.entriesAt place := by
  cases h with
  | here hn => exact absurd hname hn
  | parent hn => exact absurd hname hn
  | entry hentry _ => exact hentry

lemma glance_spec (h : tree.glance place n = .ok r) : match r with
    | .inl next => tree.isDirectoryAt place = true ∧ tree.Lands place n next
    | .inr _ => ∃ id, (n, id) ∈ tree.entriesAt place ∧ tree.isLinkAt id = true := by
  unfold glance at h
  split at h
  case h_2 => cases h
  rename_i parent entries access hnode
  have hdirectory : tree.isDirectoryAt place = true := isDirectoryAt_iff.2 ⟨_, _, _, hnode⟩
  have hparent : tree.parentAt place = parent := by rw [parentAt, hnode]
  have hentries : tree.entriesAt place = entries := by rw [entriesAt, hnode]
  split_ifs at h with hnil hshut hhere hup
  · cases h
    exact ⟨hdirectory, .here fun hname => hname.ne_nil hnil⟩
  · cases h
    exact ⟨hdirectory, .here fun hname => hname.ne_here hhere⟩
  · cases h
    exact ⟨hdirectory, hparent ▸ .parent fun hname => hname.ne_parent hup⟩
  · split at h
    · cases h
    rename_i id hentry
    have hmem : (n, id) ∈ tree.entriesAt place := hentries ▸ mem_of_entry hentry
    split at h
    · rename_i target hid
      cases h
      exact ⟨id, hmem, by rw [isLinkAt, hid]⟩
    · rename_i hid
      cases h
      refine ⟨hdirectory, .entry hmem ?_⟩
      rw [isLinkAt]
      split
      · rename_i target hlink
        exact absurd hlink (hid target)
      · rfl

/-- What a step can do: its outcome has nothing to do with how deep links may be nested, or the name is
that of a link. -/
lemma step_cases (tree : FileTree) (here : Nat) (n : Name) :
    (∃ r, (∀ depth, tree.step depth here n = r) ∧
        ∀ id, r = .ok id → tree.isDirectoryAt here = true ∧ tree.Lands here n id) ∨
      ∃ id target, (n, id) ∈ tree.entriesAt here ∧ tree.isLinkAt id = true ∧
        tree.step 0 here n = .error .tooManyLinks ∧ ∀ depth, tree.step (depth + 1) here n =
          (steps target).foldlM (tree.step depth) (origin here target) := by
  have hstep (depth : Nat) := step_eq_glance tree depth here n
  cases hglance : tree.glance here n with
  | error cause =>
    simp only [hglance] at hstep
    exact Or.inl ⟨_, hstep, fun _ h => nomatch h⟩
  | ok r =>
    cases r with
    | inl place =>
      simp only [hglance] at hstep
      exact Or.inl ⟨_, hstep, fun id h => Except.ok.inj h ▸ glance_spec hglance⟩
    | inr target =>
      obtain ⟨id, hentry, hlink⟩ := glance_spec hglance
      simp only [hglance] at hstep
      exact Or.inr ⟨id, target, hentry, hlink, hstep 0, fun depth => hstep (depth + 1)⟩

lemma resolve_of_entry (hnamed : tree.WellNamed) (hsearch : (tree.accessAt place).search = true)
    (hentry : (n, next) ∈ tree.entriesAt place) (hlink : tree.isLinkAt next = false) :
    tree.resolve place n = .ok next := by
  obtain ⟨parent, entries, access, hnode⟩ := isDirectoryAt_iff.1 (isDirectoryAt_of_entry hentry)
  have hname : Path.IsName n := (hnamed place).2 _ hentry
  have hnodup := (hnamed place).1
  rw [accessAt, hnode] at hsearch
  rw [entriesAt, hnode] at hentry hnodup
  have hglance : tree.glance place n = .ok (.inl next) := by
    unfold glance
    simp only [hnode, if_neg hname.ne_nil, if_neg hname.ne_here, if_neg hname.ne_parent, hsearch,
      entry_of_nodup hnodup hentry, Bool.not_true, Bool.false_eq_true, if_false]
    rw [isLinkAt] at hlink
    split
    · rename_i target hnext
      simp [hnext] at hlink
    · rfl
  rw [resolve, step_eq_glance, hglance]

lemma resolve_of_unsearchable (hdirectory : tree.isDirectoryAt place = true) (hn : n ≠ [])
    (hsearch : (tree.accessAt place).search = false) : tree.resolve place n = .error .denied := by
  obtain ⟨parent, entries, access, hnode⟩ := isDirectoryAt_iff.1 hdirectory
  rw [accessAt, hnode] at hsearch
  unfold resolve step
  simp only [hnode, if_neg hn, hsearch, Bool.not_false, if_true]

lemma step_nil (h : tree.isDirectoryAt place = true) (depth : Nat) :
    tree.step depth place [] = .ok place := by
  obtain ⟨parent, entries, locked, hnode⟩ := isDirectoryAt_iff.1 h
  unfold step
  simp only [hnode, if_true]

lemma step_nil_eq_ok {depth here : Nat} (h : tree.step depth here [] = .ok place) : here = place := by
  unfold step at h
  split at h
  · exact Except.ok.inj h
  · exact absurd h nofun

lemma walk_append (tree : FileTree) (here : Nat) (names : List Name) (n : Name) :
    tree.walk here (names ++ [n]) = (tree.walk here names).bind fun place => tree.resolve place n := by
  simp only [walk, resolve, List.foldlM_append, List.foldlM_cons, List.foldlM_nil, bind, Except.bind]
  cases names.foldlM (tree.step tree.linkLimit) here with
  | error cause => rfl
  | ok place =>
    simp only
    cases tree.step tree.linkLimit place n <;> rfl

def leadingSteps (d : Path) : List Name := (Path.segments d).filter (· ≠ [])

lemma steps_slash_name (d : Path) {n : Name} (hn : Path.IsName n) :
    steps (d ++ Path.slash :: n) = leadingSteps d ++ [n] := by
  have hlast : (d ++ Path.slash :: n).getLast? ≠ some Path.slash := by
    cases n with
    | nil => exact absurd rfl hn.ne_nil
    | cons c n =>
      have h := hn.getLast_ne
      rw [List.getLast?_append, List.getLast?_cons_cons]
      simpa [List.getLast?_cons] using h
  rw [steps, if_neg hlast, Path.segments_slash, Path.segments_name hn, List.filter_append, leadingSteps]
  simp [hn.ne_nil]

lemma steps_slash (d : Path) : steps (d ++ [Path.slash]) = leadingSteps d ++ [[]] := by
  have hvoid : (Path.segments []).filter (· ≠ []) = [] := rfl
  rw [steps, if_pos (by simp), Path.segments_slash, List.filter_append, hvoid, List.append_nil,
    leadingSteps]

lemma steps_plain {d : Path} (h : d.getLast? ≠ some Path.slash) : steps d = leadingSteps d := by
  rw [steps, if_neg h, List.append_nil, leadingSteps]

lemma locate_of_ne_nil (tree : FileTree) {path : Path} (h : path ≠ []) :
    tree.locate path = tree.walk (origin tree.current path) (steps path) := by
  rw [locate, if_neg h]

lemma origin_slash (current : Nat) (d t : Path) :
    origin current (d ++ Path.slash :: t) = origin current (d ++ [Path.slash]) := by
  rw [origin, origin, Path.isAbsolute_slash]

lemma locate_slash_name (tree : FileTree) (d : Path) {n : Name} (hn : Path.IsName n) :
    tree.locate (d ++ Path.slash :: n) =
      (tree.walk (origin tree.current (d ++ [Path.slash])) (leadingSteps d)).bind fun here =>
        tree.resolve here n := by
  rw [locate_of_ne_nil tree (by simp), steps_slash_name d hn, walk_append, origin_slash]

lemma walk_of_locate_slash {d : Path} (h : tree.locate (d ++ [Path.slash]) = .ok place) :
    tree.walk (origin tree.current (d ++ [Path.slash])) (leadingSteps d) = .ok place := by
  rw [locate_of_ne_nil tree (by simp), steps_slash, walk_append] at h
  cases hwalk : tree.walk (origin tree.current (d ++ [Path.slash])) (leadingSteps d) with
  | error cause => rw [hwalk] at h; exact absurd h nofun
  | ok here =>
    rw [hwalk] at h
    rw [step_nil_eq_ok h]

lemma walk_of_locate_plain {d : Path} (hnil : d ≠ []) (hslash : d.getLast? ≠ some Path.slash)
    (h : tree.locate d = .ok place) :
    tree.walk (origin tree.current (d ++ [Path.slash])) (leadingSteps d) = .ok place := by
  have horigin : origin tree.current (d ++ [Path.slash]) = origin tree.current d := by
    rw [origin, origin, Path.isAbsolute_append hnil]
  rwa [locate_of_ne_nil tree hnil, steps_plain hslash, ← horigin] at h

lemma locate_join {dir : Path} {n : Name} (hn : Path.IsName n) (h : tree.locate dir = .ok place) :
    tree.locate (Path.join dir n) = tree.resolve place n := by
  rcases Path.join_cases dir hn with ⟨rfl, _⟩ | ⟨d, rfl, hjoin⟩ | ⟨hnil, hslash, hjoin⟩
  · exact absurd h nofun
  · rw [hjoin, locate_slash_name tree d hn, walk_of_locate_slash h]
    rfl
  · rw [hjoin, locate_slash_name tree dir hn, walk_of_locate_plain hnil hslash h]
    rfl

lemma isDirectory_join_eq_false {dir : Path} {n : Name} (hn : Path.IsName n) (h : tree.locate dir = .ok place) :
    tree.isDirectory (Path.join dir n) = false ↔
      ∀ next, tree.resolve place n = .ok next → tree.isDirectoryAt next = false := by
  have hjoin := locate_join hn h
  cases hnext : tree.resolve place n with
  | error cause =>
    rw [hnext] at hjoin
    exact ⟨fun _ _ h => absurd h nofun, fun _ => by simp [isDirectory, node?, hjoin]⟩
  | ok next =>
    rw [isDirectory_of_locate (hjoin.trans hnext)]
    refine ⟨fun hfile other heq => ?_, fun hfile => hfile next rfl⟩
    rw [← Except.ok.inj heq]
    exact hfile

end

/-- The directory that holds the entry at a path, and the name of the entry there. -/
def slot? (tree : FileTree) (path : Path) : Option (Nat × Name) :=
  match tree.locate (path.reverse.dropWhile (· ≠ Path.slash)).reverse with
  | .ok place => some (place, (path.reverse.takeWhile (· ≠ Path.slash)).reverse)
  | .error _ => none

lemma slot_slash_name (tree : FileTree) (d : Path) {n : Name} (hn : Path.IsName n) :
    tree.slot? (d ++ Path.slash :: n) = match tree.locate (d ++ [Path.slash]) with
      | .ok place => some (place, n)
      | .error _ => none := by
  have hstop : ∀ c ∈ n.reverse, (decide (c ≠ Path.slash)) = true := by
    intro c hc
    have hmem := List.mem_reverse.1 hc
    simpa using fun h : c = Path.slash => hn.slash_not_mem (h ▸ hmem)
  have hreverse : (d ++ Path.slash :: n).reverse = n.reverse ++ Path.slash :: d.reverse := by simp
  have hdrop : (n.reverse ++ Path.slash :: d.reverse).dropWhile (· ≠ Path.slash) = Path.slash :: d.reverse := by
    rw [List.dropWhile_append_of_pos hstop]
    simp
  have htake : (n.reverse ++ Path.slash :: d.reverse).takeWhile (· ≠ Path.slash) = n.reverse := by
    rw [List.takeWhile_append_of_pos hstop]
    simp
  rw [slot?, hreverse, hdrop, htake, List.reverse_cons, List.reverse_reverse, List.reverse_reverse]

lemma slot_join {tree : FileTree} {dir : Path} {n : Name} {place : Nat} (hn : Path.IsName n)
    (h : tree.locate dir = .ok place) (hdir : tree.isDirectoryAt place = true) :
    tree.slot? (Path.join dir n) = some (place, n) := by
  rcases Path.join_cases dir hn with ⟨rfl, _⟩ | ⟨d, rfl, hjoin⟩ | ⟨hnil, hslash, hjoin⟩
  · exact absurd h nofun
  · rw [hjoin, slot_slash_name tree d hn, h]
  · have hslashed : tree.locate (dir ++ [Path.slash]) = .ok place := by
      rw [locate_of_ne_nil tree (by simp), steps_slash, walk_append,
        walk_of_locate_plain hnil hslash h]
      exact step_nil hdir _
    rw [hjoin, slot_slash_name tree dir hn, hslashed]

end LexRules.FileTree
