import LexRules.Proofs.Text.Digits

/-! Rounding to the nearest double, where no rounding is needed: a fraction that is a double comes
out as that double, however its decimal is scaled. -/

namespace LexRules.Binary64

lemma scaled_eq (m : Nat) : scaled m =
    if m / 2 ^ 52 = 0 then m % 2 ^ 52 else (2 ^ 52 + m % 2 ^ 52) * 2 ^ (m / 2 ^ 52 - 1) := rfl

lemma floorMagnitude_eq (t : Nat) : floorMagnitude t =
    if t < 2 ^ 53 then t else (t.log2 - 52) * 2 ^ 52 + t / 2 ^ (t.log2 - 52) := rfl

lemma ofDecimal_eq (c : Nat) (e : Int) : ofDecimal c e =
    if c = 0 then 0
    else if 310 < ((Text.ofNat c).length : Int) + e then infinity
    else if ((Text.ofNat c).length : Int) + e < -330 then 0
    else if 0 ≤ e then nearest (c * 10 ^ e.toNat) 1
    else nearest c (10 ^ (-e).toNat) := rfl

lemma scaled_of_lt {m : Nat} (hm : m < 2 ^ 52) : scaled m = m := by
  rw [scaled_eq, if_pos (by omega), Nat.mod_eq_of_lt hm]

lemma scaled_of_le {m : Nat} (hm : 2 ^ 52 ≤ m) :
    scaled m = (2 ^ 52 + m % 2 ^ 52) * 2 ^ (m / 2 ^ 52 - 1) := by
  rw [scaled_eq, if_neg (by omega)]

lemma scaled_lt_succ (m : Nat) : scaled m < scaled (m + 1) := by
  rcases Nat.lt_or_ge (m + 1) (2 ^ 52) with hm | hm
  · rw [scaled_of_lt hm, scaled_of_lt (by omega)]
    exact Nat.lt_succ_self m
  rcases Nat.eq_or_lt_of_le hm with hm | hm
  · rw [← hm, scaled_of_lt (by omega), scaled_of_le (Nat.le_refl _)]
    omega
  have hpos : 0 < 2 ^ (m / 2 ^ 52 - 1) := Nat.two_pow_pos _
  rw [scaled_of_le (by omega), scaled_of_le (by omega)]
  by_cases hcarry : (m + 1) % 2 ^ 52 = 0
  · have hfraction : m % 2 ^ 52 = 2 ^ 52 - 1 := by omega
    have hexponent : (m + 1) / 2 ^ 52 - 1 = m / 2 ^ 52 - 1 + 1 := by omega
    rw [hcarry, hfraction, hexponent, Nat.pow_succ 2 (m / 2 ^ 52 - 1)]
    generalize 2 ^ (m / 2 ^ 52 - 1) = p at hpos
    omega
  · have hfraction : (m + 1) % 2 ^ 52 = m % 2 ^ 52 + 1 := by omega
    have hexponent : (m + 1) / 2 ^ 52 = m / 2 ^ 52 := by omega
    rw [hfraction, hexponent]
    exact Nat.mul_lt_mul_of_pos_right (by omega) hpos

lemma le_scaled (m : Nat) : m ≤ scaled m := by
  induction m with
  | zero => exact Nat.zero_le _
  | succ m ih => exact Nat.lt_of_le_of_lt ih (scaled_lt_succ m)

lemma floorMagnitude_scaled (m : Nat) : floorMagnitude (scaled m) = m := by
  rcases Nat.lt_or_ge m (2 ^ 52) with hm | hm
  · rw [scaled_of_lt hm, floorMagnitude_eq, if_pos (by omega)]
  have hfraction : m % 2 ^ 52 < 2 ^ 52 := Nat.mod_lt m (by decide)
  have hlog : ((2 ^ 52 + m % 2 ^ 52) * 2 ^ (m / 2 ^ 52 - 1)).log2 = 52 + (m / 2 ^ 52 - 1) := by
    have hne : (2 ^ 52 + m % 2 ^ 52) * 2 ^ (m / 2 ^ 52 - 1) ≠ 0 := by positivity
    refine (Nat.log2_eq_iff hne).2 ⟨?_, ?_⟩
    · rw [Nat.pow_add]
      exact Nat.mul_le_mul_right _ (by omega)
    · rw [Nat.add_right_comm, Nat.pow_add]
      exact Nat.mul_lt_mul_of_pos_right (by omega) (Nat.two_pow_pos _)
  rw [scaled_of_le hm, floorMagnitude_eq]
  split
  · -- Only the first binade of normal doubles stays below `2 ^ 53`.
    rename_i hsmall
    have hexponent : m / 2 ^ 52 - 1 = 0 := by
      by_contra h
      have hgrow : 2 ^ 1 ≤ 2 ^ (m / 2 ^ 52 - 1) := Nat.pow_le_pow_right (by decide) (by omega)
      have := Nat.mul_le_mul (Nat.le_add_right (2 ^ 52) (m % 2 ^ 52)) hgrow
      omega
    rw [hexponent]
    omega
  · simp only [hlog]
    rw [Nat.add_sub_cancel_left, Nat.mul_div_cancel _ (Nat.two_pow_pos _)]
    omega

lemma nearest_mul (n d : Nat) {k : Nat} (hk : 0 < k) : nearest (n * k) (d * k) = nearest n d := by
  have hfloor : n * k * 2 ^ 1074 / (d * k) = n * 2 ^ 1074 / d := by
    rw [Nat.mul_right_comm, Nat.mul_div_mul_right _ _ hk]
  have htwice : 2 * (n * k * 2 ^ 1074) = 2 * (n * 2 ^ 1074) * k := by
    rw [Nat.mul_right_comm n, Nat.mul_assoc 2]
  simp only [nearest, Nat.pow_eq, hfloor, htwice, ← Nat.mul_assoc _ d k, Nat.mul_lt_mul_right hk,
    -Nat.reducePow]

lemma nearest_exact {n d m : Nat} (hd : 0 < d) (hm : m ≤ infinity)
    (hn : n * 2 ^ 1074 = scaled m * d) : nearest n d = m := by
  have hlow : floorMagnitude (scaled m * d / d) = m := by
    rw [Nat.mul_div_cancel _ hd, floorMagnitude_scaled]
  have hbelow : 2 * (scaled m * d) < (scaled m + scaled (m + 1)) * d := by
    have hstep := Nat.mul_lt_mul_of_pos_right (scaled_lt_succ m) hd
    rw [Nat.add_mul]
    omega
  simp only [nearest, Nat.pow_eq, hn, hlow, if_pos hbelow]
  exact Nat.min_eq_left hm

lemma ofDecimal_zero (exponent : Int) : ofDecimal 0 exponent = 0 := by
  simp [ofDecimal]

lemma ofDecimal_mul_ten (c : Nat) (e : Int) : ofDecimal (c * 10) e = ofDecimal c (e + 1) := by
  rcases Nat.eq_zero_or_pos c with rfl | hc
  · rw [Nat.zero_mul, ofDecimal_zero, ofDecimal_zero]
  have hplace : ((Text.ofNat (c * 10)).length : Int) + e = (Text.ofNat c).length + (e + 1) := by
    rw [Text.ofNat_mul_ten (by omega), List.length_append, List.length_singleton]
    omega
  have hscale : (if 0 ≤ e then nearest (c * 10 * 10 ^ e.toNat) 1
        else nearest (c * 10) (10 ^ (-e).toNat)) =
      if 0 ≤ e + 1 then nearest (c * 10 ^ (e + 1).toNat) 1
        else nearest c (10 ^ (-(e + 1)).toNat) := by
    rcases Int.lt_trichotomy e (-1) with he | rfl | he
    · have hexp : (-e).toNat = (-(e + 1)).toNat + 1 := by omega
      rw [if_neg (by omega), if_neg (by omega), hexp, Nat.pow_succ, nearest_mul _ _ (by decide)]
    · have hten : 10 ^ (-(-1 : Int)).toNat = 1 * 10 := rfl
      have hone : 10 ^ ((-1 : Int) + 1).toNat = 1 := rfl
      rw [if_neg (by decide), if_pos (by decide), hten, hone, Nat.mul_one, nearest_mul _ _ (by decide)]
    · have hexp : (e + 1).toNat = e.toNat + 1 := by omega
      rw [if_pos (by omega), if_pos (by omega), hexp, Nat.pow_succ, Nat.mul_right_comm, Nat.mul_assoc]
  have hne : c ≠ 0 := by omega
  have hne' : c * 10 ≠ 0 := by omega
  simp only [ofDecimal_eq, hplace, hne, hne', hscale, if_false]

lemma ofDecimal_mul_pow (c k : Nat) (e : Int) : ofDecimal (c * 10 ^ k) e = ofDecimal c (e + k) := by
  induction k generalizing e with
  | zero => simp
  | succ k ih =>
    rw [Nat.pow_succ, ← Nat.mul_assoc, ofDecimal_mul_ten, ih]
    congr 1
    omega

end LexRules.Binary64
