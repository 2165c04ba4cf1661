import LexRules.Proofs.Path

/-! The components of a path told from its segments. A mark of where the path starts comes first, and
every segment that is not void is a step. -/

namespace LexRules

namespace Component

def isStep : Component → Bool
  | .parent | .normal _ => true
  | .root | .here => false

def text : Component → Name
  | .normal name => name
  | .parent => [Path.dot, Path.dot]
  | .root | .here => []

end Component

namespace Path

variable {path : Path} {s : Name} {c : Component}

lemma component_void (h : isVoid s = true) : component? s = none := by
  rw [component?, if_pos h]

lemma component_of_not_void (h : isVoid s = false) :
    ∃ c, component? s = some c ∧ c.isStep = true ∧ c.text = s := by
  rw [component?, h, if_neg Bool.false_ne_true]
  split
  · rename_i hparent
    exact ⟨.parent, rfl, rfl, hparent.symm⟩
  · exact ⟨.normal s, rfl, rfl, rfl⟩

lemma isStep_of_mem {pieces : List Name} (h : c ∈ pieces.filterMap component?) : c.isStep = true ∧ c.text ≠ [] := by
  obtain ⟨s, -, hs⟩ := List.mem_filterMap.1 h
  cases hvoid : isVoid s with
  | true =>
    rw [component_void hvoid] at hs
    exact absurd hs nofun
  | false =>
    obtain ⟨d, hd, hstep, htext⟩ := component_of_not_void hvoid
    obtain rfl := Option.some.inj (hd.symm.trans hs)
    refine ⟨hstep, fun hnil => ?_⟩
    rw [← htext, hnil] at hvoid
    exact absurd hvoid nofun

lemma first_void_of_isAbsolute {first : Name} {rest : List Name}
    (h : isAbsolute path = true) (hpath : segments path = first :: rest) : first = [] := by
  cases path with
  | nil => exact absurd h nofun
  | cons c path =>
    obtain rfl : c = slash := by simpa [isAbsolute] using h
    rw [segments, Text.splitOn, if_pos rfl] at hpath
    exact (List.cons.inj hpath).1.symm

lemma components_marked {first : Name} {rest : List Name} (hpath : segments path = first :: rest)
    (h : isAbsolute path = true ∨ first = [dot]) : ∃ mark : Component,
      components path = mark :: rest.filterMap component? ∧ mark.isStep = false ∧
        (mark = .root ↔ isAbsolute path = true) := by
  rw [components_eq hpath]
  by_cases habsolute : isAbsolute path = true
  · rw [if_pos habsolute]
    exact ⟨.root, rfl, rfl, iff_of_true rfl habsolute⟩
  · rw [if_neg habsolute, if_pos (h.resolve_left habsolute)]
    exact ⟨.here, rfl, rfl, iff_of_false nofun habsolute⟩

lemma components_plain (habsolute : isAbsolute path = false)
    (hhere : (segments path).head? ≠ some [dot]) :
    components path = (segments path).filterMap component? := by
  cases hpath : segments path with
  | nil => exact absurd hpath (Text.splitOn_ne_nil slash path)
  | cons first rest =>
    rw [hpath] at hhere
    have hfirst : first ≠ [dot] := fun h => hhere (congrArg some h)
    rw [components_eq hpath, habsolute, if_neg Bool.false_ne_true, if_neg hfirst, List.filterMap_cons]
    cases component? first <;> rfl

lemma components_eq_mark (path : Path) :
    ∃ mark : List Component, components path = mark ++ (segments path).filterMap component? ∧
      (∀ c ∈ mark, c.isStep = false) ∧ (.root ∈ mark ↔ isAbsolute path = true) := by
  cases hpath : segments path with
  | nil => exact absurd hpath (Text.splitOn_ne_nil slash path)
  | cons first rest =>
    by_cases hmarked : isAbsolute path = true ∨ first = [dot]
    · obtain ⟨mark, heq, hstep, hroot⟩ := components_marked hpath hmarked
      have hvoid : isVoid first = true := by
        rcases hmarked with habsolute | rfl
        · rw [first_void_of_isAbsolute habsolute hpath]
          rfl
        · rfl
      refine ⟨[mark], ?_, List.forall_mem_singleton.2 hstep, ?_⟩
      · rw [heq, List.filterMap_cons, component_void hvoid, List.singleton_append]
      · rw [List.mem_singleton, eq_comm, hroot]
    · rw [not_or] at hmarked
      have hhere : (segments path).head? ≠ some [dot] := by
        rw [hpath]
        exact fun h => hmarked.2 (Option.some.inj h)
      refine ⟨[], ?_, List.forall_mem_nil _, iff_of_false List.not_mem_nil hmarked.1⟩
      rw [components_plain (eq_false_of_ne_true hmarked.1) hhere, hpath, List.nil_append]

lemma filter_components (path : Path) :
    (components path).filter Component.isStep = (segments path).filterMap component? := by
  obtain ⟨mark, heq, hmark, -⟩ := components_eq_mark path
  rw [heq, List.filter_append, List.filter_eq_nil_iff.2 fun c hc => by simp [hmark c hc],
    List.filter_eq_self.2 fun c hc => (isStep_of_mem hc).1, List.nil_append]

lemma root_mem_components (path : Path) : .root ∈ components path ↔ isAbsolute path = true := by
  obtain ⟨mark, heq, -, hroot⟩ := components_eq_mark path
  rw [heq, List.mem_append, hroot]
  constructor
  · rintro (h | h)
    · exact h
    · exact absurd (isStep_of_mem h).1 nofun
  · exact Or.inl

end Path

end LexRules
