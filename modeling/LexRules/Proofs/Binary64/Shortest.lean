import LexRules.Proofs.Binary64.Nearest

/-! The shortest decimal of a finite double reads back as that double. -/

namespace LexRules.Binary64

lemma onGrid_reads {tie : Tie} {m k : Nat} {place : Int} (h : onGrid? tie m place = some k) :
    ofDecimal k place = m := by
  simp only [onGrid?] at h
  generalize (inUnits m place).1 / (inUnits m place).2 = low at h
  split at h
  · -- Both neighbours read back, so it does not matter which of them is nearer.
    rename_i hlow hhigh
    have hboth : ∀ upward : Bool, ofDecimal (if upward then low + 1 else low) place = m := by
      rintro (_ | _)
      · exact beq_iff_eq.1 hlow
      · exact beq_iff_eq.1 hhigh
    exact Option.some.inj h ▸ hboth _
  · rename_i hlow _
    exact Option.some.inj h ▸ beq_iff_eq.1 hlow
  · rename_i _ hhigh
    exact Option.some.inj h ▸ beq_iff_eq.1 hhigh
  · exact absurd h (by simp)

lemma firstGrid_reads {tie : Tie} {m k count : Nat} {start place : Int}
    (h : firstGrid? tie m start count = some (k, place)) : ofDecimal k place = m := by
  induction count generalizing start with
  | zero => simp [firstGrid?] at h
  | succ count ih =>
    rw [firstGrid?] at h
    split at h
    · rename_i hit
      simp only [Option.some.injEq, Prod.mk.injEq] at h
      rw [← h.1, ← h.2]
      exact onGrid_reads hit
    · exact ih h

lemma ofDecimal_dropZeros (c : Nat) (e : Int) :
    ofDecimal (dropZeros c e).1 (dropZeros c e).2 = ofDecimal c e := by
  fun_induction dropZeros c e with
  | case1 e => rw [ofDecimal_zero, ofDecimal_zero]
  | case2 c e hc hz ih =>
    rw [ih, ← ofDecimal_mul_ten, Nat.div_mul_cancel (Nat.dvd_of_mod_eq_zero hz)]
  | case3 => rfl

lemma scaled_lt_pow {m k : Nat} (hm : m / 2 ^ 52 - 1 ≤ k) : scaled m < 2 ^ 53 * 2 ^ k := by
  rcases Nat.lt_or_ge m (2 ^ 52) with h | h
  · rw [scaled_of_lt h]
    calc m < 2 ^ 53 := by omega
      _ ≤ 2 ^ 53 * 2 ^ k := Nat.le_mul_of_pos_right _ (Nat.two_pow_pos k)
  · rw [scaled_of_le h]
    calc (2 ^ 52 + m % 2 ^ 52) * 2 ^ (m / 2 ^ 52 - 1)
        < 2 ^ 53 * 2 ^ (m / 2 ^ 52 - 1) := Nat.mul_lt_mul_of_pos_right (by omega) (Nat.two_pow_pos _)
      _ ≤ 2 ^ 53 * 2 ^ k := Nat.mul_le_mul_left _ (Nat.pow_le_pow_right (by decide) hm)

lemma length_expansion {m : Nat} (hpos : 0 < m) (hm : m < infinity) :
    743 < (Text.ofNat (scaled m * 5 ^ 1074)).length ∧
      (Text.ofNat (scaled m * 5 ^ 1074)).length ≤ 1383 := by
  have hfive : 0 < 5 ^ 1074 := by decide +kernel
  have hbottom : 10 ^ 743 ≤ 5 ^ 1074 := by decide +kernel
  have htop : 2 ^ 53 * 2 ^ 2045 * 5 ^ 1074 ≤ 10 ^ 1383 := by decide +kernel
  have hscaled : scaled m < 2 ^ 53 * 2 ^ 2045 := by
    apply scaled_lt_pow
    simp only [infinity, Nat.pow_eq] at hm
    omega
  apply Text.length_ofNat_between
  · exact hbottom.trans (Nat.le_mul_of_pos_left _ (hpos.trans_le (le_scaled m)))
  · exact (Nat.mul_lt_mul_of_pos_right hscaled hfive).trans_le htop

lemma ofDecimal_expansion {m : Nat} (hpos : 0 < m) (hm : m < infinity) :
    ofDecimal (scaled m * 5 ^ 1074) (-1074) = m := by
  obtain ⟨hlow, hhigh⟩ := length_expansion hpos hm
  have hten : 5 ^ 1074 * 2 ^ 1074 = 10 ^ 1074 := by decide +kernel
  have hvalue : scaled m * 5 ^ 1074 * 2 ^ 1074 = scaled m * 10 ^ 1074 := by
    rw [Nat.mul_assoc, hten]
  have hpow : 0 < 10 ^ 1074 := by decide +kernel
  have hnearest := nearest_exact hpow hm.le hvalue
  generalize scaled m * 5 ^ 1074 = n at *
  have hne : n ≠ 0 := by
    rintro rfl
    rw [Text.ofNat_of_lt (by decide)] at hlow
    exact absurd hlow (by simp)
  rw [ofDecimal_eq, if_neg hne, if_neg (by omega), if_neg (by omega), if_neg (by decide)]
  exact hnearest

lemma ofDecimal_shortest (tie : Tie) {m : Nat} (hm : m < infinity) :
    ofDecimal (shortest tie m).1 (shortest tie m).2 = m := by
  rw [shortest]
  split
  · rename_i hzero
    rw [hzero, ofDecimal_zero]
  · rename_i hne
    split
    · rename_i hit
      rw [ofDecimal_dropZeros, firstGrid_reads hit]
    · exact ofDecimal_expansion (Nat.pos_of_ne_zero hne) hm

end LexRules.Binary64
