import LexRules.Proofs.FileTree
import Mathlib.Data.Finset.Card

/-! Chains of links. Following links has a limit, but a chain that comes to an end goes through every
link at most once: where there are no more links than the limit allows, a name that leads anywhere at
all leads there within the limit. -/

namespace LexRules.FileTree

def linkEntries (tree : FileTree) : List (Nat × Name) :=
  (List.range tree.nodes.size).flatMap fun place =>
    ((tree.entriesAt place).filter fun e => tree.isLinkAt e.2).map fun e => (place, e.1)

section

variable {α β ε : Type} {f g : β → α → Except ε β}

lemma foldlM_mono (hmono : ∀ b a c, f b a = .ok c → g b a = .ok c) {l : List α} {b c : β}
    (h : l.foldlM f b = .ok c) : l.foldlM g b = .ok c := by
  induction l generalizing b with
  | nil => exact h
  | cons a l ih =>
    rw [List.foldlM_cons] at h ⊢
    cases hstep : f b a with
    | error e => rw [hstep] at h; exact absurd h nofun
    | ok d =>
      rw [hstep] at h
      rw [hmono b a d hstep]
      exact ih h

/-- Where one fold comes to an end and another does not, some step makes the difference. -/
lemma exists_step_of_foldlM {l : List α} {b c : β} (h : l.foldlM f b = .ok c)
    (hno : l.foldlM g b ≠ .ok c) : ∃ b a c, f b a = .ok c ∧ g b a ≠ .ok c := by
  by_contra hall
  refine hno (foldlM_mono (fun b a c hstep => ?_) h)
  by_contra hstuck
  exact hall ⟨b, a, c, hstep, hstuck⟩

end

variable {tree : FileTree} {depth here place : Nat} {n : Name}

lemma mem_linkEntries {id : Nat} (hentry : (n, id) ∈ tree.entriesAt here)
    (hlink : tree.isLinkAt id = true) : (here, n) ∈ tree.linkEntries := by
  have hlt : here < tree.nodes.size := by
    by_contra hlt
    rw [entriesAt, Array.getElem?_eq_none (Nat.le_of_not_lt hlt)] at hentry
    exact absurd hentry List.not_mem_nil
  exact List.mem_flatMap.2 ⟨here, List.mem_range.2 hlt,
    List.mem_map.2 ⟨(n, id), List.mem_filter.2 ⟨hentry, hlink⟩, rfl⟩⟩

lemma step_mono (h : tree.step depth here n = .ok place) :
    tree.step (depth + 1) here n = .ok place := by
  induction depth generalizing here n place with
  | zero =>
    rcases step_cases tree here n with ⟨r, hr, -⟩ | ⟨id, target, -, -, hzero, -⟩
    · rwa [hr] at h ⊢
    · rw [hzero] at h
      exact absurd h nofun
  | succ depth ih =>
    rcases step_cases tree here n with ⟨r, hr, -⟩ | ⟨id, target, -, -, -, hsucc⟩
    · rwa [hr] at h ⊢
    · rw [hsucc] at h ⊢
      exact foldlM_mono (fun _ _ _ => ih) h

lemma step_mono_le {deeper : Nat} (hle : depth ≤ deeper) (h : tree.step depth here n = .ok place) :
    tree.step deeper here n = .ok place := by
  induction hle with
  | refl => exact h
  | step _ ih => exact step_mono ih

/-- A name leads somewhere just when links may be nested one deeper than some depth. -/
def Critical (tree : FileTree) (depth here : Nat) (n : Name) : Prop :=
  ∃ place, tree.step (depth + 1) here n = .ok place ∧ tree.step depth here n ≠ .ok place

lemma Critical.below (h : tree.Critical depth here n) {k : Nat} (hk : k ≤ depth) :
    ∃ here n, tree.Critical k here n := by
  induction depth generalizing here n with
  | zero =>
    obtain rfl := Nat.le_zero.1 hk
    exact ⟨here, n, h⟩
  | succ depth ih =>
    rcases Nat.le_succ_iff.1 hk with hk | rfl
    · obtain ⟨place, hok, hno⟩ := h
      rcases step_cases tree here n with ⟨r, hr, -⟩ | ⟨id, target, -, -, -, hsucc⟩
      · rw [hr] at hok hno
        exact absurd hok hno
      · rw [hsucc] at hok hno
        obtain ⟨b, a, c, hstep, hstuck⟩ := exists_step_of_foldlM hok hno
        exact ih ⟨c, hstep, hstuck⟩ hk
    · exact ⟨here, n, h⟩

lemma Critical.entry (h : tree.Critical depth here n) : (here, n) ∈ tree.linkEntries := by
  obtain ⟨place, hok, hno⟩ := h
  rcases step_cases tree here n with ⟨r, hr, -⟩ | ⟨id, _, hentry, hlink, -, -⟩
  · rw [hr] at hok hno
    exact absurd hok hno
  · exact mem_linkEntries hentry hlink

lemma Critical.unique {other : Nat} (h : tree.Critical depth here n)
    (hother : tree.Critical other here n) : depth = other := by
  obtain ⟨place, hok, hno⟩ := h
  obtain ⟨place', hok', hno'⟩ := hother
  rcases Nat.lt_trichotomy depth other with hlt | heq | hlt
  · have hsame := (step_mono_le (Nat.succ_le_succ hlt.le) hok).symm.trans hok'
    exact absurd (hsame ▸ step_mono_le hlt hok) hno'
  · exact heq
  · have hsame := (step_mono_le (Nat.succ_le_succ hlt.le) hok').symm.trans hok
    exact absurd (hsame ▸ step_mono_le hlt hok') hno

/-- The links that a critical name goes through are told apart by the depths at which they are critical. -/
lemma Critical.lt_links (h : tree.Critical depth here n) : depth < tree.linkEntries.length := by
  have hlevel : ∀ k, ∃ entry : Nat × Name, k ≤ depth →
      tree.Critical k entry.1 entry.2 ∧ entry ∈ tree.linkEntries := by
    intro k
    by_cases hk : k ≤ depth
    · obtain ⟨here, n, hcritical⟩ := h.below hk
      exact ⟨(here, n), fun _ => ⟨hcritical, hcritical.entry⟩⟩
    · exact ⟨(0, []), fun h => absurd h hk⟩
  choose link hlink using hlevel
  have hcard := Finset.card_le_card_of_injOn link (s := Finset.range (depth + 1))
    (t := tree.linkEntries.toFinset) ?_ ?_
  · rw [Finset.card_range] at hcard
    exact hcard.trans (List.toFinset_card_le _)
  · intro k hk
    have hle := Nat.le_of_lt_succ (Finset.mem_range.1 hk)
    exact List.mem_toFinset.2 (hlink k hle).2
  · intro j hj k hk heq
    have hcritical := (hlink j (Nat.le_of_lt_succ (Finset.mem_range.1 hj))).1
    have hagain := (hlink k (Nat.le_of_lt_succ (Finset.mem_range.1 hk))).1
    rw [← heq] at hagain
    exact hcritical.unique hagain

theorem resolve_of_step (hlimit : tree.linkEntries.length ≤ tree.linkLimit)
    (h : tree.step depth here n = .ok place) : tree.resolve here n = .ok place := by
  induction depth with
  | zero => exact step_mono_le (Nat.zero_le _) h
  | succ depth ih =>
    by_cases hless : tree.step depth here n = .ok place
    · exact ih hless
    · have hlt := Critical.lt_links ⟨place, h, hless⟩
      exact step_mono_le (Nat.succ_le_of_lt (hlt.trans_le hlimit)) h

end LexRules.FileTree
