import LexRules.Proofs.Path
import LexRules.Proofs.Text.Recasing

/-! The extension of a path whose ASCII letters change their case. Slashes and dots stay, so it is the
extension of the path with its letters changed. -/

namespace LexRules.Path

open Text (lowerByte)

/-- Paths that differ in the case of ASCII letters only. -/
def Recased (p q : Path) : Prop := p.map lowerByte = q.map lowerByte

lemma lowerByte_slash_iff {b : UInt8} : lowerByte b = slash ↔ b = slash :=
  Text.lowerByte_eq_iff (by decide)

lemma lowerByte_dot_iff {b : UInt8} : lowerByte b = dot ↔ b = dot :=
  Text.lowerByte_eq_iff (by decide)

def lowerComponent : Component → Component
  | .normal name => .normal (name.map lowerByte)
  | c => c

lemma map_eq_dots_iff (s : Name) (n : Nat) :
    s.map lowerByte = List.replicate n dot ↔ s = List.replicate n dot := by
  induction n generalizing s with
  | zero => exact List.map_eq_nil_iff
  | succ n ih =>
    cases s with
    | nil => simp [List.replicate_succ]
    | cons c s =>
      rw [List.map_cons, List.replicate_succ, List.cons.injEq, List.cons.injEq, lowerByte_dot_iff, ih]

lemma isAbsolute_map (path : Path) : isAbsolute (path.map lowerByte) = isAbsolute path := by
  cases path with
  | nil => rfl
  | cons c path =>
    rw [Bool.eq_iff_iff]
    simp [isAbsolute, lowerByte_slash_iff]

lemma component_map (s : Name) : component? (s.map lowerByte) = (component? s).map lowerComponent := by
  have hvoid : isVoid (s.map lowerByte) = isVoid s := by
    rw [Bool.eq_iff_iff]
    simp only [isVoid, Bool.or_eq_true, beq_iff_eq, List.map_eq_nil_iff]
    exact or_congr_right (map_eq_dots_iff s 1)
  have hparent : s.map lowerByte = [dot, dot] ↔ s = [dot, dot] := map_eq_dots_iff s 2
  rw [component?, component?, hvoid]
  split
  · rfl
  · simp only [hparent]
    split <;> rfl

lemma components_map (path : Path) :
    components (path.map lowerByte) = (components path).map lowerComponent := by
  have hcomponents (rest : List Name) : (rest.map (List.map lowerByte)).filterMap component? =
      (rest.filterMap component?).map lowerComponent := by
    rw [List.filterMap_map, List.map_filterMap]
    exact List.filterMap_congr fun s _ => component_map s
  cases hpath : segments path with
  | nil => exact absurd hpath (Text.splitOn_ne_nil slash path)
  | cons first rest =>
    have hmap : segments (path.map lowerByte) = first.map lowerByte :: rest.map (List.map lowerByte) := by
      rw [segments, Text.splitOn_map fun _ => lowerByte_slash_iff, ← segments, hpath, List.map_cons]
    have hhere : first.map lowerByte = [dot] ↔ first = [dot] := map_eq_dots_iff first 1
    rw [components_eq hmap, components_eq hpath, List.map_append, hcomponents, isAbsolute_map, component_map]
    simp only [hhere]
    congr 1
    split
    · rfl
    · split
      · rfl
      · cases component? first <;> rfl

lemma fileName_map (path : Path) :
    fileName? (path.map lowerByte) = (fileName? path).map (List.map lowerByte) := by
  rw [fileName?, fileName?, components_map, List.getLast?_map]
  cases (components path).getLast? with
  | none => rfl
  | some c => cases c <;> rfl

lemma splitLastDot_map (t : Name) :
    splitLastDot? (t.map lowerByte) = (splitLastDot? t).map fun p => (p.1, p.2.map lowerByte) := by
  induction t with
  | nil => rfl
  | cons c t ih =>
    rw [List.map_cons, splitLastDot?, splitLastDot?, ih]
    cases splitLastDot? t with
    | some p => rfl
    | none =>
      simp only [Option.map_none, lowerByte_dot_iff]
      split <;> rfl

lemma extension_map (path : Path) :
    extension? (path.map lowerByte) = (extension? path).map (List.map lowerByte) := by
  rw [extension?, extension?, fileName_map]
  cases fileName? path with
  | none => rfl
  | some name =>
    simp only [Option.map_some, Option.bind_some, splitLastDot_map]
    cases splitLastDot? name with
    | none => rfl
    | some p =>
      obtain ⟨inside, ext⟩ := p
      cases inside <;> rfl

end LexRules.Path
