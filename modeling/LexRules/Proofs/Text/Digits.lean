import LexRules.Scalar
import Mathlib.Data.List.Induction
import Mathlib.Tactic.Lemma
import Mathlib.Tactic.Linarith
import Mathlib.Tactic.Ring

/-! Decimal digits and the numbers they spell: writing a number and reading it back, the number of
its digits, and signed 64-bit integers as text. -/

namespace LexRules.Text

lemma digit_of_lt {k : Nat} (hk : k < 10) : digit? (Char.ofNat (48 + k)) = some k := by
  have hall : ∀ i < 10, digit? (Char.ofNat (48 + i)) = some i := by decide
  exact hall k hk

@[simp] lemma digit_digitChar (n : Nat) : digit? (digitChar n) = some (n % 10) :=
  digit_of_lt (Nat.mod_lt n (by decide))

@[simp] lemma isDigit_digitChar (n : Nat) : isDigit (digitChar n) = true := by
  simp [isDigit]

lemma isDigit_zero : isDigit '0' = true := by decide

lemma isDigit_point : isDigit '.' = false := by decide

lemma isDigit_exponentMark : isDigit 'e' = false := by decide

lemma forall_digit {p : Char → Prop} (hp : ∀ k < 10, p (Char.ofNat (48 + k))) (c : Char)
    (hc : isDigit c = true) : p c := by
  have hrange : '0' ≤ c ∧ c ≤ '9' := by
    by_contra h
    simp [isDigit, digit?, h] at hc
  have hlow : 48 ≤ c.toNat := hrange.1
  have hhigh : c.toNat ≤ 57 := hrange.2
  have hk := hp (c.toNat - 48) (by omega)
  rwa [Nat.add_sub_cancel' hlow, Char.ofNat_toNat] at hk

lemma ofNat_of_lt {n : Nat} (hn : n < 10) : ofNat n = [digitChar n] := by
  rw [ofNat, if_pos hn]

lemma ofNat_of_le {n : Nat} (hn : 10 ≤ n) : ofNat n = ofNat (n / 10) ++ [digitChar n] := by
  rw [ofNat, if_neg (by omega)]

lemma ofNat_ne_nil (n : Nat) : ofNat n ≠ [] := by
  rw [ofNat]
  split <;> simp

lemma all_isDigit_ofNat (n : Nat) : ∀ c ∈ ofNat n, isDigit c = true := by
  induction n using Nat.strong_induction_on with
  | _ n ih =>
    rcases Nat.lt_or_ge n 10 with hn | hn
    · simp [ofNat_of_lt hn]
    · intro c hc
      rw [ofNat_of_le hn, List.mem_append, List.mem_singleton] at hc
      rcases hc with hc | rfl
      · exact ih (n / 10) (by omega) c hc
      · exact isDigit_digitChar n

def valueAfter (n : Nat) (t : Text) : Nat := t.foldl (fun n c => 10 * n + (digit? c).getD 0) n

lemma valueAfter_eq (n : Nat) (t : Text) :
    valueAfter n t = n * 10 ^ t.length + digitsValue t := by
  induction t using List.reverseRecOn with
  | nil => simp [valueAfter, digitsValue]
  | append_singleton t c ih =>
    simp only [valueAfter, digitsValue, List.foldl_append, List.foldl_cons, List.foldl_nil,
      List.length_append, List.length_singleton] at ih ⊢
    rw [ih]
    ring

lemma digitsValue_append (s t : Text) :
    digitsValue (s ++ t) = digitsValue s * 10 ^ t.length + digitsValue t := by
  rw [← valueAfter_eq]
  simp [digitsValue, valueAfter, List.foldl_append]

@[simp] lemma digitsValue_zeros (n : Nat) : digitsValue (List.replicate n '0') = 0 := by
  induction n with
  | zero => rfl
  | succ n ih =>
    rw [List.replicate_succ', digitsValue_append, ih]
    decide

@[simp] lemma digitsValue_ofNat (n : Nat) : digitsValue (ofNat n) = n := by
  induction n using Nat.strong_induction_on with
  | _ n ih =>
    rcases Nat.lt_or_ge n 10 with hn | hn
    · rw [ofNat_of_lt hn]
      simp [digitsValue, Nat.mod_eq_of_lt hn]
    · rw [ofNat_of_le hn, digitsValue_append, ih (n / 10) (by omega)]
      simp only [digitsValue, List.foldl_cons, List.foldl_nil, digit_digitChar, Option.getD_some,
        List.length_singleton]
      omega

lemma ofNat_mul_ten {n : Nat} (hn : n ≠ 0) : ofNat (n * 10) = ofNat n ++ ['0'] := by
  have hchar : digitChar (n * 10) = '0' := by simp [digitChar]
  rw [ofNat_of_le (by omega), Nat.mul_div_cancel n (by decide), hchar]

lemma lt_pow_length_ofNat (n : Nat) : n < 10 ^ (ofNat n).length := by
  induction n using Nat.strong_induction_on with
  | _ n ih =>
    rcases Nat.lt_or_ge n 10 with hn | hn
    · simpa [ofNat_of_lt hn] using hn
    · have hq := ih (n / 10) (by omega)
      rw [ofNat_of_le hn, List.length_append, List.length_singleton, Nat.pow_succ]
      omega

lemma pow_length_ofNat_le {n : Nat} (hn : n ≠ 0) : 10 ^ ((ofNat n).length - 1) ≤ n := by
  induction n using Nat.strong_induction_on with
  | _ n ih =>
    rcases Nat.lt_or_ge n 10 with hlt | hge
    · rw [ofNat_of_lt hlt]
      exact Nat.one_le_iff_ne_zero.2 hn
    · have hq := ih (n / 10) (by omega) (by omega)
      obtain ⟨k, hk⟩ := Nat.exists_eq_succ_of_ne_zero
        (fun h => ofNat_ne_nil (n / 10) (List.length_eq_zero_iff.1 h))
      rw [ofNat_of_le hge, List.length_append, List.length_singleton, hk]
      rw [hk] at hq
      calc 10 ^ (k.succ + 1 - 1) = 10 ^ k * 10 := Nat.pow_succ 10 k
        _ ≤ n / 10 * 10 := Nat.mul_le_mul_right 10 hq
        _ ≤ n := Nat.div_mul_le_self n 10

lemma length_ofNat_between {n low high : Nat} (hlow : 10 ^ low ≤ n) (hhigh : n < 10 ^ high) :
    low < (ofNat n).length ∧ (ofNat n).length ≤ high := by
  have hpos : 0 < 10 ^ low := Nat.pow_pos (by decide)
  have hbelow := hlow.trans_lt (lt_pow_length_ofNat n)
  have habove := (pow_length_ofNat_le (by omega : n ≠ 0)).trans_lt hhigh
  rw [Nat.pow_lt_pow_iff_right (by decide)] at hbelow habove
  omega

end LexRules.Text

namespace LexRules

lemma readDigits_eq_ok {limit : Nat} {overflow : NumberFlaw} {n : Nat} {t : Text}
    (ht : ∀ c ∈ t, Text.isDigit c = true) (hn : Text.valueAfter n t ≤ limit) :
    readDigits limit overflow n t = .ok (Text.valueAfter n t) := by
  induction t generalizing n with
  | nil => rfl
  | cons c t ih =>
    obtain ⟨d, hd⟩ := Option.isSome_iff_exists.1 (ht c List.mem_cons_self)
    have hstep : Text.valueAfter n (c :: t) = Text.valueAfter (10 * n + d) t := by
      simp [Text.valueAfter, hd]
    rw [hstep] at hn ⊢
    have hle : 10 * n + d ≤ limit := by
      have hgrow := Text.valueAfter_eq (10 * n + d) t
      have hpos : 0 < 10 ^ t.length := Nat.pow_pos (by decide)
      nlinarith
    rw [readDigits, hd]
    simp only [Nat.not_lt.2 hle, if_false]
    exact ih (fun c hc => ht c (List.mem_cons_of_mem _ hc)) hn

lemma readDigits_ofNat {limit : Nat} (overflow : NumberFlaw) {n : Nat} (hn : n ≤ limit) :
    readDigits limit overflow 0 (Text.ofNat n) = .ok n := by
  have hv : Text.valueAfter 0 (Text.ofNat n) = n := by simp [Text.valueAfter_eq]
  rw [readDigits_eq_ok (Text.all_isDigit_ofNat n) (hv.symm ▸ hn), hv]

lemma readInteger_ofNat {n : Nat} (hn : n ≤ 2 ^ 63 - 1) :
    readInteger (Text.ofNat n) = .ok (Int64.ofInt n) := by
  have hread : readDigits (Nat.pow 2 63 - 1) .tooLarge 0 (Text.ofNat n) = .ok n :=
    readDigits_ofNat .tooLarge hn
  have hsign : ∀ c ∈ Text.ofNat n, c ≠ '+' ∧ c ≠ '-' := fun c hc =>
    Text.forall_digit (p := fun c => c ≠ '+' ∧ c ≠ '-') (by decide) c (Text.all_isDigit_ofNat n c hc)
  cases ht : Text.ofNat n with
  | nil => exact absurd ht (Text.ofNat_ne_nil n)
  | cons c t =>
    rw [ht] at hread hsign
    obtain ⟨hplus, hminus⟩ := hsign c List.mem_cons_self
    unfold readInteger
    split <;> simp_all [Except.map]

lemma readInteger_neg {n : Nat} (hn : n ≤ 2 ^ 63) :
    readInteger ('-' :: Text.ofNat n) = .ok (Int64.ofInt (-(n : Int))) := by
  have hread : readDigits (Nat.pow 2 63) .tooSmall 0 (Text.ofNat n) = .ok n :=
    readDigits_ofNat .tooSmall hn
  cases ht : Text.ofNat n with
  | nil => exact absurd ht (Text.ofNat_ne_nil n)
  | cons c t =>
    rw [ht] at hread
    simp only [readInteger, hread]
    rfl

lemma readInteger_ofInt (n : Int64) : readInteger (Text.ofInt n.toInt) = .ok n := by
  have hlow := n.le_toInt
  have hhigh := n.toInt_lt
  cases hi : n.toInt with
  | ofNat k =>
    have hk : k ≤ 2 ^ 63 - 1 := by rw [hi, Int.ofNat_eq_natCast] at hhigh; omega
    rw [Text.ofInt, readInteger_ofNat hk, ← Int64.ofInt_toInt n, hi]
    rfl
  | negSucc k =>
    have hk : k + 1 ≤ 2 ^ 63 := by rw [hi] at hlow; omega
    rw [Text.ofInt, readInteger_neg hk, ← Int64.ofInt_toInt n, hi]
    rfl

end LexRules
