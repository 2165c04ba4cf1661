import LexRules.Proofs.Path
import Mathlib.Data.List.Lex
import Mathlib.Data.Prod.Lex

/-! The order of paths is linear on their components: paths that neither precede one another are the
same. -/

namespace LexRules

instance byteOrder : LinearOrder UInt8 where
  le_refl _ := le_refl (α := ℕ) _
  le_trans _ _ _ := le_trans (α := ℕ)
  le_antisymm _ _ := UInt8.le_antisymm
  le_total _ _ := le_total (α := ℕ) _ _
  lt_iff_le_not_ge _ _ := lt_iff_le_not_ge (α := ℕ)
  toDecidableLE := inferInstance
  toDecidableEq := inferInstance
  toDecidableLT := inferInstance

namespace Component

def name : Component → Name
  | .normal name => name
  | _ => []

def key (c : Component) : Nat ×ₗ Name := toLex (c.rank, c.name)

lemma key_injective : Function.Injective key := by
  intro a b h
  obtain ⟨hrank, hname⟩ := Prod.mk.inj (toLex_inj.1 h)
  cases a <;> cases b <;> simp_all [rank, name]

instance : LinearOrder Component := LinearOrder.lift' key key_injective

lemma lt_iff {a b : Component} : a < b ↔ a.rank < b.rank ∨ a.rank = b.rank ∧ a.name < b.name :=
  Prod.Lex.toLex_lt_toLex

lemma lt_eq (a b : Component) : lt a b = decide (a < b) := by
  rw [Bool.eq_iff_iff, decide_eq_true_iff, lt_iff]
  cases a <;> cases b <;> simp [lt, rank, name]

end Component

namespace Path

variable {p q : Path}

lemma precedes_iff : precedes p q = true ↔ components p < components q := by
  rw [precedes, show Component.lt = fun a b => decide (a < b) from funext₂ Component.lt_eq]
  exact List.lex_eq_true_iff_lt

lemma not_precedes_iff : (!precedes q p) = true ↔ components p ≤ components q := by
  rw [Bool.not_eq_true', ← Bool.not_eq_true, precedes_iff, not_lt]

lemma same_iff : same p q = true ↔ components p = components q := beq_iff_eq

end Path

end LexRules
