import LexRules.Proofs.Binary64.Ordinal
import LexRules.Scalar
import Mathlib

/-! Equality of scalars. Between floats it is a bound on their distance in the row of all doubles,
so it is symmetric and holds between any two that stand closer, but it is not transitive. -/

namespace LexRules.Scalar

open Binary64

variable {x y z : Binary64}

lemma float_agrees_iff :
    agrees (.float x) (.float y) = true ↔ x.isNaN = true ∧ y.isNaN = true ∨ distance x y ≤ 2 := by
  rw [agrees, Bool.or_eq_true, Bool.and_eq_true]
  by_cases h : x.isNaN = true ∧ y.isNaN = true
  · exact iff_of_true (Or.inl h) (Or.inl h)
  · exact or_congr_right (isNear_iff h)

variable {a b c : Scalar}

lemma agrees_iff : a.agrees b = true ↔ a = b ∨ ∃ x y, a = .float x ∧ b = .float y ∧
    (x.isNaN = true ∧ y.isNaN = true ∨ distance x y ≤ 2) := by
  cases a <;> cases b
  case float.float x y =>
    have hself : distance x x ≤ 2 := by simp [distance]
    rw [float_agrees_iff]
    constructor
    · exact fun h => Or.inr ⟨x, y, rfl, rfl, h⟩
    · rintro (heq | ⟨_, _, hx, hy, h⟩)
      · exact Or.inr (float.inj heq ▸ hself)
      · rwa [float.inj hx, float.inj hy]
  all_goals simp [agrees]

lemma agrees_comm (a b : Scalar) : a.agrees b = b.agrees a := by
  rw [Bool.eq_iff_iff, agrees_iff, agrees_iff]
  constructor
  all_goals
    rintro (rfl | ⟨x, y, rfl, rfl, h⟩)
    · exact Or.inl rfl
    · rw [distance_comm, and_comm] at h
      exact Or.inr ⟨y, x, rfl, rfl, h⟩

structure Measured (x y : Binary64) : Prop where
  agrees_iff : agrees (.float x) (.float y) = true ↔
    (∃ v, x.number? = some v ∧ y.number? = some v) ∨ distance x y ≤ 2
  word_iff : wordDistance x y ≤ 2 ↔ distance x y ≤ 2
  symm : agrees (.float x) (.float y) = agrees (.float y) (.float x)
  between : ∀ z, x.place ≤ z.place → z.place ≤ y.place →
    agrees (.float x) (.float y) = true →
    agrees (.float x) (.float z) = true ∧ agrees (.float z) (.float y) = true

theorem measured_of_number (h : ¬ (x.isNaN = true ∧ y.isNaN = true)) : Measured x y := by
  have hagrees : agrees (.float x) (.float y) = true ↔ distance x y ≤ 2 :=
    float_agrees_iff.trans (or_iff_right h)
  refine ⟨?_, (wordDistance_le_iff x y).trans (natAbs_steps_iff h), agrees_comm _ _, ?_⟩
  · rw [hagrees, ← sameNumber_iff, iff_or_self]
    exact fun hsame => (distance_of_sameNumber hsame).trans (by decide)
  · intro z hxz hzy hxy
    rw [hagrees] at hxy
    have hcloser : distance x z ≤ distance x y ∧ distance z y ≤ distance x y := by
      rw [distance, distance, distance]
      omega
    have hagree {u v : Binary64} (hle : distance u v ≤ distance x y) :
        agrees (.float u) (.float v) = true :=
      float_agrees_iff.2 (Or.inr (hle.trans hxy))
    exact hcloser.imp hagree hagree

/-- Minus infinity and the last NaN stand so far apart that the word which counts the steps
between them wraps around. -/
theorem measured_of_number_wrapping :
    ¬ ((⟨0xfff0000000000000⟩ : Binary64).isNaN = true ∧
      (⟨0x7fffffffffffffff⟩ : Binary64).isNaN = true) ∧
    Measured ⟨0xfff0000000000000⟩ ⟨0x7fffffffffffffff⟩ ∧
    steps ⟨0xfff0000000000000⟩ ⟨0x7fffffffffffffff⟩ = 4503599627370496 := by
  have hnumber : ¬ ((⟨0xfff0000000000000⟩ : Binary64).isNaN = true ∧
      (⟨0x7fffffffffffffff⟩ : Binary64).isNaN = true) := by decide
  exact ⟨hnumber, measured_of_number hnumber, by decide⟩

theorem nan_agrees_iff (hx : x.isNaN = true) (hb : ∀ y, b = .float y → y.isNaN = false) :
    agrees (.float x) b = agrees b (.float x) ∧
    (agrees (.float x) b = true ↔
      ∃ y, b = .float y ∧ x.isNegative = y.isNegative ∧ x.magnitude ≤ y.magnitude + 2) := by
  refine ⟨agrees_comm _ _, ?_⟩
  cases b with
  | float y =>
    have hy : y.isNaN = false := hb y rfl
    have hnumber : ¬ (x.isNaN = true ∧ y.isNaN = true) :=
      fun h => Bool.false_ne_true (hy.symm.trans h.2)
    have hnear : distance x y ≤ 2 ↔ x.isNegative = y.isNegative ∧ x.magnitude ≤ y.magnitude + 2 :=
      distance_le_of_isNaN hx hy
    rw [float_agrees_iff, or_iff_right hnumber, hnear]
    constructor
    · exact fun h => ⟨y, rfl, h⟩
    · rintro ⟨_, heq, h⟩
      rwa [float.inj heq]
  | _ => exact iff_of_false Bool.false_ne_true fun ⟨_, heq, _⟩ => Scalar.noConfusion heq

theorem nan_agrees_iff_infinity :
    (⟨0xfff0000000000002⟩ : Binary64).isNaN = true ∧ (⟨0xfff0000000000003⟩ : Binary64).isNaN = true ∧
    agrees (.float ⟨0xfff0000000000002⟩) (.float ⟨0xfff0000000000000⟩) = true ∧
    agrees (.float ⟨0xfff0000000000003⟩) (.float ⟨0xfff0000000000000⟩) = false := by
  have hnumber : ∀ y, Scalar.float ⟨0xfff0000000000000⟩ = .float y → y.isNaN = false := by
    rintro _ ⟨⟩
    decide
  refine ⟨by decide, by decide, ?_, ?_⟩
  · exact (nan_agrees_iff (by decide) hnumber).2.2 ⟨_, rfl, by decide, by decide⟩
  · rw [← Bool.not_eq_true, (nan_agrees_iff (by decide) hnumber).2]
    rintro ⟨_, ⟨⟩, -, h⟩
    exact absurd h (by decide)

theorem nan_not_apart : ¬ ∀ (x : Binary64) (b : Scalar), x.isNaN = true →
    (∀ y, b = .float y → y.isNaN = false) →
    agrees (.float x) b = false ∧ agrees b (.float x) = false := by
  intro h
  have hnumber : ∀ y, Scalar.float ⟨0x7ff0000000000000⟩ = .float y → y.isNaN = false := by
    rintro _ ⟨⟩
    decide
  have hapart := h ⟨0x7ff0000000000001⟩ (.float ⟨0x7ff0000000000000⟩) (by decide) hnumber
  exact absurd hapart.1 (by decide)

/-- Three floats of which the outer two are at most twice the tolerance apart, or the middle one
stands for no number. -/
def Straddles (a b c : Scalar) : Prop :=
  ∃ x y z, a = .float x ∧ b = .float y ∧ c = .float z ∧ (distance x z ≤ 4 ∨ y.isNaN = true)

lemma agrees_or_straddles (hab : a.agrees b = true) (hbc : b.agrees c = true) :
    a.agrees c = true ∨ Straddles a b c := by
  rcases agrees_iff.1 hab with rfl | ⟨x, y, rfl, rfl, hxy⟩
  · exact Or.inl hbc
  rcases agrees_iff.1 hbc with rfl | ⟨_, z, heq, rfl, hyz⟩
  · exact Or.inl hab
  obtain rfl := float.inj heq
  refine Or.inr ⟨x, y, z, rfl, rfl, rfl, ?_⟩
  rcases hxy with ⟨-, hy⟩ | hxy
  · exact Or.inr hy
  rcases hyz with ⟨hy, -⟩ | hyz
  · exact Or.inr hy
  · exact Or.inl ((distance_triangle x y z).trans (Nat.add_le_add hxy hyz))

theorem agrees_laws (a b c : Scalar) :
    (a.agrees b = true ↔ a = b ∨ ∃ x y, a = .float x ∧ b = .float y ∧
      (x.isNaN = true ∧ y.isNaN = true ∨ distance x y ≤ 2)) ∧
    a.agrees a = true ∧ a.agrees b = b.agrees a ∧
    (a.agrees b = true → b.agrees c = true → a.agrees c = true ∨ Straddles a b c) :=
  ⟨agrees_iff, agrees_iff.2 (Or.inl rfl), agrees_comm a b, agrees_or_straddles⟩

theorem agrees_not_equivalence : ¬ Equivalence fun a b : Scalar => a.agrees b = true := by
  intro h
  have hjump : agrees (.float ⟨0x3ff0000000000000⟩) (.float ⟨0x3ff0000000000002⟩) = true := by decide
  have hnext : agrees (.float ⟨0x3ff0000000000002⟩) (.float ⟨0x3ff0000000000004⟩) = true := by decide
  exact absurd (h.trans hjump hnext) (by decide)

end LexRules.Scalar
