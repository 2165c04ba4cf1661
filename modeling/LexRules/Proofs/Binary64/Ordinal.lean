import LexRules.Proofs.Binary64.Literal
import Mathlib

/-! Doubles in a row, from the most negative bit pattern upward. The steps between two of them are
counted in a word that wraps around, which shows for no pair but one of two NaNs. -/

namespace LexRules.Binary64

def value (x : Binary64) : Int :=
  if x.isNegative then -(scaled x.magnitude : Int) else scaled x.magnitude

def number? (x : Binary64) : Option Int := if x.isNaN then none else some x.value

def place (x : Binary64) : Int := x.ordinal.toNat

def distance (x y : Binary64) : Nat := (x.place - y.place).natAbs

/-- The steps between two doubles as a word counts them: where the steps are one too many for a
word without a sign, the greatest word stands for them. -/
def wordDistance (x y : Binary64) : Int64 :=
  if steps x y = Int64.minValue then Int64.maxValue else (steps x y).abs

variable {x y z : Binary64}

lemma isNegative_iff : x.isNegative = true ↔ 2 ^ 63 ≤ x.bits.toNat := by
  rw [isNegative, Nat.pow_eq, decide_eq_true_eq]

lemma isNaN_iff : x.isNaN = true ↔ infinity < x.magnitude := by
  rw [isNaN, decide_eq_true_eq]

lemma eq_of_magnitude (hsign : x.isNegative = y.isNegative) (hmagnitude : x.magnitude = y.magnitude) :
    x = y := by
  rw [← ofMagnitude_magnitude x, hsign, hmagnitude, ofMagnitude_magnitude]

lemma place_of_negative (h : x.isNegative = true) : x.place = 2 ^ 63 - 1 - (x.magnitude : Int) := by
  have hbits := x.bits.toNat_lt
  have hmagnitude : x.magnitude = x.bits.toNat % 2 ^ 63 := rfl
  rw [place, ordinal, if_pos h, UInt64.toNat_not, UInt64.size]
  rw [isNegative_iff] at h
  omega

lemma place_of_positive (h : x.isNegative = false) : x.place = 2 ^ 63 + (x.magnitude : Int) := by
  have hlow : x.bits.toNat < 2 ^ 63 := by
    rw [← Bool.not_eq_true, isNegative_iff] at h
    exact Nat.not_le.1 h
  have hmagnitude : x.magnitude = x.bits.toNat := Nat.mod_eq_of_lt hlow
  have hmask : (0x8000000000000000 : UInt64).toNat = 2 ^ 63 := rfl
  have hor := Nat.two_pow_add_eq_or_of_lt hlow 1
  rw [Nat.mul_one] at hor
  rw [place, ordinal, h, if_neg Bool.false_ne_true, UInt64.toNat_or, hmask, Nat.or_comm, ← hor, hmagnitude]
  push_cast
  rfl

lemma scaled_strictMono : StrictMono scaled := strictMono_nat_of_lt_succ scaled_lt_succ

lemma scaled_eq_zero_iff {m : Nat} : scaled m = 0 ↔ m = 0 := scaled_strictMono.injective.eq_iff' rfl

lemma value_eq_iff : x.value = y.value ↔ x = y ∨ x.magnitude = 0 ∧ y.magnitude = 0 := by
  constructor
  · intro h
    rw [value, value] at h
    by_cases hsign : x.isNegative = y.isNegative
    · rw [hsign] at h
      refine Or.inl (eq_of_magnitude hsign (scaled_strictMono.injective ?_))
      split at h <;> omega
    · -- values of different signs are equal only as zeros
      have hzero : scaled x.magnitude = 0 ∧ scaled y.magnitude = 0 := by
        rw [Bool.eq_not_of_ne hsign] at h
        cases hy : y.isNegative with
        | true =>
          rw [hy, Bool.not_true, if_neg Bool.false_ne_true, if_pos rfl] at h
          omega
        | false =>
          rw [hy, Bool.not_false, if_pos rfl, if_neg Bool.false_ne_true] at h
          omega
      exact Or.inr (hzero.imp scaled_eq_zero_iff.1 scaled_eq_zero_iff.1)
  · rintro (rfl | ⟨hx, hy⟩)
    · rfl
    · have hzero : scaled 0 = 0 := rfl
      simp [value, hx, hy, hzero]

lemma sameNumber_iff :
    sameNumber x y = true ↔ ∃ v, x.number? = some v ∧ y.number? = some v := by
  have hbits : x.bits = y.bits ↔ x = y := by
    cases x
    cases y
    exact (mk.injEq _ _).symm.to_iff
  rw [sameNumber, number?, number?]
  cases x.isNaN with
  | true => simp
  | false =>
    cases y.isNaN with
    | true => simp
    | false => simp [hbits, ← value_eq_iff, eq_comm (a := y.value)]

lemma distance_of_sameNumber (h : sameNumber x y = true) : distance x y ≤ 1 := by
  obtain ⟨v, hx, hy⟩ := sameNumber_iff.1 h
  have hvalue : x.value = y.value := by
    rw [number?] at hx hy
    split at hx
    · cases hx
    split at hy
    · cases hy
    exact Option.some.inj (hx.trans hy.symm)
  rcases value_eq_iff.1 hvalue with rfl | ⟨hx, hy⟩
  · simp [distance]
  · -- the two zeros stand next to each other
    have hnear : ∀ z : Binary64, z.magnitude = 0 → z.place = 2 ^ 63 - 1 ∨ z.place = 2 ^ 63 := by
      intro z hz
      cases hsign : z.isNegative with
      | true => exact Or.inl (by rw [place_of_negative hsign, hz]; rfl)
      | false => exact Or.inr (by rw [place_of_positive hsign, hz]; rfl)
    rw [distance]
    have := hnear x hx
    have := hnear y hy
    omega

lemma place_bounds (x : Binary64) : 0 ≤ x.place ∧ x.place < 2 ^ 64 := by
  have := x.ordinal.toNat_lt
  rw [place]
  omega

lemma place_bounds_of_number (h : x.isNaN = false) :
    2 ^ 52 - 1 ≤ x.place ∧ x.place ≤ 2 ^ 64 - 2 ^ 52 := by
  have hmagnitude : x.magnitude ≤ 2 ^ 63 - 2 ^ 52 := by
    rw [← Bool.not_eq_true, isNaN_iff] at h
    exact Nat.not_lt.1 h
  cases hsign : x.isNegative with
  | true =>
    rw [place_of_negative hsign]
    omega
  | false =>
    rw [place_of_positive hsign]
    omega

lemma toInt_steps (x y : Binary64) : (steps x y).toInt = (x.place - y.place).bmod (2 ^ 64) := by
  have hsteps : (steps x y).toInt = (x.ordinal.toBitVec - y.ordinal.toBitVec).toInt := rfl
  rw [hsteps, BitVec.toInt_sub, BitVec.toInt_eq_toNat_bmod, BitVec.toInt_eq_toNat_bmod,
    Int.bmod_sub_bmod, Int.sub_bmod_bmod]
  rfl

/-- Counting in a word is right about few steps, unless it goes all around the row. -/
lemma natAbs_steps_iff (h : ¬ (x.isNaN = true ∧ y.isNaN = true)) :
    (steps x y).toInt.natAbs ≤ tolerance ↔ distance x y ≤ tolerance := by
  have hdistance : -(2 ^ 64 - 2 ^ 52) ≤ x.place - y.place ∧ x.place - y.place ≤ 2 ^ 64 - 2 ^ 52 := by
    have hx := place_bounds x
    have hy := place_bounds y
    cases hnumber : x.isNaN with
    | false =>
      have := place_bounds_of_number hnumber
      omega
    | true =>
      have := place_bounds_of_number (Bool.eq_false_iff.2 fun hy => h ⟨hnumber, hy⟩)
      omega
  rw [toInt_steps, distance, tolerance, Int.bmod_def]
  generalize x.place - y.place = d at hdistance
  split <;> omega

lemma isNear_iff (h : ¬ (x.isNaN = true ∧ y.isNaN = true)) :
    isNear x y = true ↔ distance x y ≤ tolerance := by
  rw [isNear, Bool.or_eq_true, decide_eq_true_eq, natAbs_steps_iff h, or_iff_right_iff_imp]
  intro hsame
  exact Nat.le_succ_of_le (distance_of_sameNumber hsame)

lemma distance_le_of_isNaN (hx : x.isNaN = true) (hy : y.isNaN = false) :
    distance x y ≤ tolerance ↔ x.isNegative = y.isNegative ∧ x.magnitude ≤ y.magnitude + tolerance := by
  have hxmagnitude : 2 ^ 63 - 2 ^ 52 < x.magnitude := isNaN_iff.1 hx
  have hymagnitude : y.magnitude ≤ 2 ^ 63 - 2 ^ 52 := by
    rw [← Bool.not_eq_true, isNaN_iff] at hy
    exact Nat.not_lt.1 hy
  rw [distance, tolerance]
  cases hxsign : x.isNegative with
  | true =>
    rw [place_of_negative hxsign]
    cases hysign : y.isNegative with
    | true =>
      rw [place_of_negative hysign, eq_self, true_and]
      omega
    | false =>
      rw [place_of_positive hysign]
      refine iff_of_false ?_ fun h => Bool.noConfusion h.1
      omega
  | false =>
    rw [place_of_positive hxsign]
    cases hysign : y.isNegative with
    | true =>
      rw [place_of_negative hysign]
      refine iff_of_false ?_ fun h => Bool.noConfusion h.1
      omega
    | false =>
      rw [place_of_positive hysign, eq_self, true_and]
      omega

lemma wordDistance_le_iff (x y : Binary64) :
    wordDistance x y ≤ Int64.ofNat tolerance ↔ (steps x y).toInt.natAbs ≤ tolerance := by
  have htolerance : (Int64.ofNat tolerance).toInt = tolerance := rfl
  rw [wordDistance, Int64.le_iff_toInt_le, htolerance]
  split
  · rename_i hmin
    rw [hmin, Int64.toInt_maxValue, Int64.toInt_minValue, tolerance]
    decide
  · rename_i hmin
    have habs : (steps x y).abs.toInt = (steps x y).toInt.natAbs := by
      refine BitVec.toInt_abs_eq_natAbs_of_ne_intMin fun heq => hmin ?_
      exact Int64.toBitVec_inj.1 heq
    rw [habs]
    exact Int.ofNat_le

lemma distance_comm (x y : Binary64) : distance x y = distance y x := by
  rw [distance, distance]
  omega

lemma distance_triangle (x y z : Binary64) : distance x z ≤ distance x y + distance y z := by
  rw [distance, distance, distance]
  omega

end LexRules.Binary64
