import LexRules.Proofs.Text.Lines
import Mathlib

/-! UTF-8 and lines. The byte of a line feed stands for a line feed only, so bytes that are UTF-8 can
be cut into lines before they are read or after. Bytes that are UTF-8 are shown as what they hold. -/

namespace LexRules.Text

inductive Encoded : Bytes → Char → Prop
  | one {a : UInt8} : a ≤ 0x7F → Encoded [a] (Char.ofNat a.toNat)
  | two {a b : UInt8} : (0xC2 ≤ a && a ≤ 0xDF) = true → isContinuation b = true →
      Encoded [a, b] (Char.ofNat (a.toNat % 32 * 64 + low6 b))
  | three {a b c : UInt8} : (0xE0 ≤ a && a ≤ 0xEF) = true →
      (secondOfThree a b && isContinuation c) = true →
      Encoded [a, b, c] (Char.ofNat (a.toNat % 16 * 4096 + low6 b * 64 + low6 c))
  | four {a b c d : UInt8} : (0xF0 ≤ a && a ≤ 0xF4) = true →
      (secondOfFour a b && isContinuation c && isContinuation d) = true →
      Encoded [a, b, c, d]
        (Char.ofNat (a.toNat % 8 * 262144 + low6 b * 4096 + low6 c * 64 + low6 d))

variable {unit bytes : Bytes} {c : Char} {t : Text}

lemma not_le_of_between {a x lo hi : UInt8} (hx : x < lo) (h : (lo ≤ a && a ≤ hi) = true) : ¬ a ≤ x := by
  simp only [Bool.and_eq_true, decide_eq_true_eq] at h
  exact fun hle => UInt8.lt_irrefl x (UInt8.lt_of_lt_of_le hx (UInt8.le_trans h.1 hle))

lemma not_between_of_between {a x y lo hi : UInt8} (hy : y < lo) (h : (lo ≤ a && a ≤ hi) = true) :
    ¬ (x ≤ a && a ≤ y) = true := by
  simp [not_le_of_between hy h]

lemma decodeUtf8_encoded (h : Encoded unit c) (rest : Bytes) :
    decodeUtf8 (unit ++ rest) = (decodeUtf8 rest).map (c :: ·) := by
  cases h with
  | one ha => simp only [List.cons_append, List.nil_append, decodeUtf8.eq_def (_ :: rest), if_pos ha]
  | @two a b ha hb =>
    have hlow := not_le_of_between (x := 0x7F) (by decide) ha
    rw [List.cons_append, decodeUtf8.eq_def]
    simp only [List.cons_append, List.nil_append, hlow, ha, hb, if_true, if_false]
  | @three a b c ha hbc =>
    have hlow := not_le_of_between (x := 0x7F) (by decide) ha
    have hmid := not_between_of_between (x := 0xC2) (y := 0xDF) (by decide) ha
    rw [List.cons_append, decodeUtf8.eq_def]
    simp only [List.cons_append, List.nil_append, hlow, hmid, ha, hbc, if_true, if_false,
      Bool.false_eq_true]
  | @four a b c d ha hbcd =>
    have hlow := not_le_of_between (x := 0x7F) (by decide) ha
    have hmid := not_between_of_between (x := 0xC2) (y := 0xDF) (by decide) ha
    have hhigh := not_between_of_between (x := 0xE0) (y := 0xEF) (by decide) ha
    rw [List.cons_append, decodeUtf8.eq_def]
    simp only [List.cons_append, List.nil_append, hlow, hmid, hhigh, ha, hbcd, if_true, if_false,
      Bool.false_eq_true]

lemma encoded_of_decode (h : decodeUtf8 bytes = some t) :
    bytes = [] ∧ t = [] ∨ ∃ unit c rest s, bytes = unit ++ rest ∧ t = c :: s ∧ Encoded unit c ∧
      decodeUtf8 rest = some s := by
  revert h
  fun_cases decodeUtf8 bytes with
  | case1 => exact fun h => Or.inl ⟨rfl, (Option.some.inj h).symm⟩
  | case2 a rest ha =>
    intro h
    obtain ⟨s, hs, rfl⟩ := Option.map_eq_some_iff.1 h
    exact Or.inr ⟨[a], _, rest, s, rfl, rfl, .one ha, hs⟩
  | case3 a _ ha b rest hb =>
    intro h
    obtain ⟨s, hs, rfl⟩ := Option.map_eq_some_iff.1 h
    exact Or.inr ⟨[a, b], _, rest, s, rfl, rfl, .two ha hb, hs⟩
  | case6 a _ _ ha b c rest hbc =>
    intro h
    obtain ⟨s, hs, rfl⟩ := Option.map_eq_some_iff.1 h
    exact Or.inr ⟨[a, b, c], _, rest, s, rfl, rfl, .three ha hbc, hs⟩
  | case9 a _ _ _ ha b c d rest hbcd =>
    intro h
    obtain ⟨s, hs, rfl⟩ := Option.map_eq_some_iff.1 h
    exact Or.inr ⟨[a, b, c, d], _, rest, s, rfl, rfl, .four ha hbcd, hs⟩
  | case4 => exact nofun
  | case5 => exact nofun
  | case7 => exact nofun
  | case8 => exact nofun
  | case10 => exact nofun
  | case11 => exact nofun
  | case12 => exact nofun

lemma toNat_ofNat_eq {n : Nat} (hn : n.isValidChar) : (Char.ofNat n).toNat = n := by
  rw [Char.toNat_ofNat, if_pos hn]

lemma ofNat_ne {n k : Nat} (hpos : 0 < k) (hk : k < 128) (h : n ≠ k) : Char.ofNat n ≠ Char.ofNat k := by
  intro heq
  have hval := congrArg Char.toNat heq
  rw [Char.toNat_ofNat, toNat_ofNat_eq (Or.inl (by omega))] at hval
  split at hval
  · exact h hval
  · omega

lemma ascii_of_encoded {x : UInt8} (hpos : 0 < x.toNat) (hx : x.toNat < 128) (h : Encoded unit c) :
    unit = [x] ∧ c = Char.ofNat x.toNat ∨ x ∉ unit ∧ c ≠ Char.ofNat x.toNat := by
  cases h with
  | @one a ha =>
    by_cases hn : a = x
    · subst hn
      exact Or.inl ⟨rfl, rfl⟩
    · exact Or.inr ⟨by simpa using Ne.symm hn, ofNat_ne hpos hx fun h => hn (UInt8.toNat_inj.1 h)⟩
  | @two a b ha hb =>
    simp only [isContinuation, Bool.and_eq_true, decide_eq_true_eq, UInt8.le_iff_toNat_le,
      UInt8.reduceToNat] at ha hb
    refine Or.inr ⟨?_, ofNat_ne hpos hx ?_⟩
    · simp only [List.mem_cons, List.not_mem_nil, or_false, ← UInt8.toNat_inj]
      omega
    · omega
  | @three a b c ha hbc =>
    simp only [secondOfThree, isContinuation, Bool.and_eq_true, Bool.or_eq_true, decide_eq_true_eq,
      bne_iff_ne, ne_eq, UInt8.le_iff_toNat_le, ← UInt8.toNat_inj, UInt8.reduceToNat] at ha hbc
    refine Or.inr ⟨?_, ofNat_ne hpos hx ?_⟩
    · simp only [List.mem_cons, List.not_mem_nil, or_false, ← UInt8.toNat_inj]
      omega
    · simp only [low6]
      omega
  | @four a b c d ha hbcd =>
    simp only [secondOfFour, isContinuation, Bool.and_eq_true, Bool.or_eq_true, decide_eq_true_eq,
      bne_iff_ne, ne_eq, UInt8.le_iff_toNat_le, ← UInt8.toNat_inj, UInt8.reduceToNat] at ha hbcd
    refine Or.inr ⟨?_, ofNat_ne hpos hx ?_⟩
    · simp only [List.mem_cons, List.not_mem_nil, or_false, ← UInt8.toNat_inj]
      omega
    · simp only [low6]
      omega

lemma newline_of_encoded (h : Encoded unit c) :
    unit = [0x0A] ∧ c = '\n' ∨ (0x0A : UInt8) ∉ unit ∧ c ≠ '\n' :=
  ascii_of_encoded (by decide) (by decide) h

lemma encoded_ne_nil (h : Encoded unit c) : unit ≠ [] := by
  cases h <;> simp

lemma Encoded.cast {n : Nat} (h : Encoded unit (Char.ofNat n)) (hn : n = c.toNat) : Encoded unit c := by
  rwa [hn, Char.ofNat_toNat] at h

/-- What is written for a character is read as it: each form is written just where the shorter ones
do not reach, and a character is no surrogate. -/
lemma encoded_utf8EncodeChar (c : Char) : Encoded (String.utf8EncodeChar c) c := by
  have hvalid : c.toNat < 0xD800 ∨ 0xDFFF < c.toNat ∧ c.toNat < 0x110000 := c.valid
  have hval : c.val.toNat = c.toNat := rfl
  simp only [String.utf8EncodeChar, hval]
  split
  · refine (Encoded.one ?_).cast ?_
    · simp only [UInt8.le_iff_toNat_le, UInt8.toNat_ofNat', UInt8.reduceToNat]
      omega
    · rw [UInt8.toNat_ofNat']
      omega
  split
  · refine (Encoded.two ?_ ?_).cast ?_
    · simp only [Bool.and_eq_true, decide_eq_true_eq, UInt8.le_iff_toNat_le, UInt8.toNat_ofNat',
        UInt8.reduceToNat]
      omega
    · simp only [isContinuation, Bool.and_eq_true, decide_eq_true_eq, UInt8.le_iff_toNat_le,
        UInt8.toNat_ofNat', UInt8.reduceToNat]
      omega
    · simp only [low6, UInt8.toNat_ofNat']
      omega
  split
  · refine (Encoded.three ?_ ?_).cast ?_
    · simp only [Bool.and_eq_true, decide_eq_true_eq, UInt8.le_iff_toNat_le, UInt8.toNat_ofNat',
        UInt8.reduceToNat]
      omega
    · simp only [secondOfThree, isContinuation, Bool.and_eq_true, Bool.or_eq_true, decide_eq_true_eq,
        bne_iff_ne, ne_eq, UInt8.le_iff_toNat_le, ← UInt8.toNat_inj, UInt8.toNat_ofNat',
        UInt8.reduceToNat]
      omega
    · simp only [low6, UInt8.toNat_ofNat']
      omega
  · refine (Encoded.four ?_ ?_).cast ?_
    · simp only [Bool.and_eq_true, decide_eq_true_eq, UInt8.le_iff_toNat_le, UInt8.toNat_ofNat',
        UInt8.reduceToNat]
      omega
    · simp only [secondOfFour, isContinuation, Bool.and_eq_true, Bool.or_eq_true, decide_eq_true_eq,
        bne_iff_ne, ne_eq, UInt8.le_iff_toNat_le, ← UInt8.toNat_inj, UInt8.toNat_ofNat',
        UInt8.reduceToNat]
      omega
    · simp only [low6, UInt8.toNat_ofNat']
      omega

lemma decodeUtf8_encodeUtf8 (t : Text) : decodeUtf8 (encodeUtf8 t) = some t := by
  induction t with
  | nil => rfl
  | cons c t ih =>
    rw [encodeUtf8, List.flatMap_cons, decodeUtf8_encoded (encoded_utf8EncodeChar c)]
    exact congrArg (Option.map (c :: ·)) ih

lemma eq_of_encoded (h : Encoded unit c) : unit = String.utf8EncodeChar c := by
  have hval (n : Nat) : (Char.ofNat n).val.toNat = (Char.ofNat n).toNat := rfl
  cases h with
  | @one a ha =>
    simp only [UInt8.le_iff_toNat_le, UInt8.reduceToNat] at ha
    rw [String.utf8EncodeChar, hval, toNat_ofNat_eq (Or.inl (by omega)), if_pos ha, UInt8.ofNat_toNat]
  | @two a b ha hb =>
    simp only [isContinuation, Bool.and_eq_true, decide_eq_true_eq, UInt8.le_iff_toNat_le,
      UInt8.reduceToNat] at ha hb
    generalize hn : a.toNat % 32 * 64 + low6 b = n
    rw [low6] at hn
    rw [String.utf8EncodeChar, hval, toNat_ofNat_eq (Or.inl (by omega)), if_neg (by omega),
      if_pos (by omega)]
    simp only [List.cons.injEq, ← UInt8.toNat_inj, UInt8.toNat_ofNat', and_true]
    omega
  | @three a b c ha hbc =>
    simp only [secondOfThree, isContinuation, Bool.and_eq_true, Bool.or_eq_true, decide_eq_true_eq,
      bne_iff_ne, ne_eq, UInt8.le_iff_toNat_le, ← UInt8.toNat_inj, UInt8.reduceToNat] at ha hbc
    generalize hn : a.toNat % 16 * 4096 + low6 b * 64 + low6 c = n
    rw [low6, low6] at hn
    have hvalid : n.isValidChar := by
      rw [Nat.isValidChar]
      omega
    rw [String.utf8EncodeChar, hval, toNat_ofNat_eq hvalid, if_neg (by omega), if_neg (by omega),
      if_pos (by omega)]
    simp only [List.cons.injEq, ← UInt8.toNat_inj, UInt8.toNat_ofNat', and_true]
    omega
  | @four a b c d ha hbcd =>
    simp only [secondOfFour, isContinuation, Bool.and_eq_true, Bool.or_eq_true, decide_eq_true_eq,
      bne_iff_ne, ne_eq, UInt8.le_iff_toNat_le, ← UInt8.toNat_inj, UInt8.reduceToNat] at ha hbcd
    generalize hn : a.toNat % 8 * 262144 + low6 b * 4096 + low6 c * 64 + low6 d = n
    rw [low6, low6, low6] at hn
    have hvalid : n.isValidChar := by
      rw [Nat.isValidChar]
      omega
    rw [String.utf8EncodeChar, hval, toNat_ofNat_eq hvalid, if_neg (by omega), if_neg (by omega),
      if_neg (by omega)]
    simp only [List.cons.injEq, ← UInt8.toNat_inj, UInt8.toNat_ofNat', and_true]
    omega

lemma decodeUtf8_eq_some_iff : decodeUtf8 bytes = some t ↔ bytes = encodeUtf8 t := by
  constructor
  · intro h
    induction t generalizing bytes with
    | nil =>
      rcases encoded_of_decode h with ⟨rfl, -⟩ | ⟨_, _, _, _, -, habsurd, -⟩
      · rfl
      · exact absurd habsurd nofun
    | cons c t ih =>
      rcases encoded_of_decode h with ⟨-, habsurd⟩ | ⟨unit, c, rest, s, rfl, heq, hunit, hrest⟩
      · exact absurd habsurd nofun
      obtain ⟨rfl, rfl⟩ := List.cons.inj heq
      rw [ih hrest, eq_of_encoded hunit, encodeUtf8, encodeUtf8, List.flatMap_cons]
  · rintro rfl
    exact decodeUtf8_encodeUtf8 t

lemma decodeLossy_encoded (h : Encoded unit c) (rest : Bytes) :
    decodeLossy (unit ++ rest) = c :: decodeLossy rest := by
  cases h with
  | one ha => simp only [List.cons_append, List.nil_append, decodeLossy.eq_def (_ :: rest), if_pos ha]
  | @two a b ha hb =>
    have hlow := not_le_of_between (x := 0x7F) (by decide) ha
    rw [List.cons_append, decodeLossy.eq_def]
    simp only [List.cons_append, List.nil_append, hlow, ha, hb, if_true, if_false]
  | @three a b c ha hbc =>
    have hlow := not_le_of_between (x := 0x7F) (by decide) ha
    have hmid := not_between_of_between (x := 0xC2) (y := 0xDF) (by decide) ha
    rw [Bool.and_eq_true] at hbc
    rw [List.cons_append, decodeLossy.eq_def]
    simp only [List.cons_append, List.nil_append, hlow, hmid, ha, hbc.1, hbc.2, if_true, if_false,
      Bool.false_eq_true, Bool.not_true]
  | @four a b c d ha hbcd =>
    have hlow := not_le_of_between (x := 0x7F) (by decide) ha
    have hmid := not_between_of_between (x := 0xC2) (y := 0xDF) (by decide) ha
    have hhigh := not_between_of_between (x := 0xE0) (y := 0xEF) (by decide) ha
    rw [Bool.and_eq_true, Bool.and_eq_true] at hbcd
    rw [List.cons_append, decodeLossy.eq_def]
    simp only [List.cons_append, List.nil_append, hlow, hmid, hhigh, ha, hbcd.1.1, hbcd.1.2, hbcd.2,
      if_true, if_false, Bool.false_eq_true, Bool.not_true]

lemma decodeLossy_encodeUtf8 (t : Text) : decodeLossy (encodeUtf8 t) = t := by
  induction t with
  | nil => rfl
  | cons c t ih =>
    rw [encodeUtf8, List.flatMap_cons, decodeLossy_encoded (encoded_utf8EncodeChar c)]
    exact congrArg (c :: ·) ih

lemma pieces_prepend {α : Type} [DecidableEq α] {stop : α} {part : List α} (h : stop ∉ part)
    (hne : part ≠ []) (rest : List α) : pieces stop (part ++ rest) = match pieces stop rest with
      | [] => [(part, false)]
      | (piece, ended) :: more => (part ++ piece, ended) :: more := by
  induction part with
  | nil => exact absurd rfl hne
  | cons c part ih =>
    rw [List.mem_cons, not_or] at h
    rw [List.cons_append, pieces, if_neg (Ne.symm h.1)]
    cases part with
    | nil =>
      rw [List.nil_append]
      cases pieces stop rest <;> rfl
    | cons d part =>
      rw [ih h.2 (by simp)]
      cases pieces stop rest <;> rfl

lemma pieces_decode (h : decodeUtf8 bytes = some t) :
    (pieces 0x0A bytes).map (fun p => (decodeUtf8 p.1, p.2)) =
      (pieces '\n' t).map fun p => (some p.1, p.2) := by
  induction t generalizing bytes with
  | nil =>
    rcases encoded_of_decode h with ⟨rfl, -⟩ | ⟨_, _, _, _, -, habsurd, -⟩
    · rfl
    · exact absurd habsurd nofun
  | cons c t ih =>
    rcases encoded_of_decode h with ⟨-, habsurd⟩ | ⟨unit, c, rest, s, rfl, heq, hunit, hrest⟩
    · exact absurd habsurd nofun
    obtain ⟨rfl, rfl⟩ := List.cons.inj heq
    have hpieces := ih hrest
    rcases newline_of_encoded hunit with ⟨rfl, rfl⟩ | ⟨hbytes, hc⟩
    · simpa [pieces, decodeUtf8] using hpieces
    · rw [pieces_prepend hbytes (encoded_ne_nil hunit), pieces, if_neg hc]
      cases hp : pieces 0x0A rest with
      | nil =>
        have hnil : pieces '\n' t = [] := by simpa [hp] using hpieces
        have hdecode := decodeUtf8_encoded hunit []
        simpa [hnil, decodeUtf8] using hdecode
      | cons p more =>
        cases hq : pieces '\n' t with
        | nil => simp [hp, hq] at hpieces
        | cons q others =>
          simp only [hp, hq, List.map_cons, List.cons.injEq, Prod.mk.injEq] at hpieces
          obtain ⟨⟨hpq, hended⟩, hmore⟩ := hpieces
          simp [decodeUtf8_encoded hunit, hpq, hended, hmore]

lemma decodeUtf8_dropFinal (h : decodeUtf8 bytes = some t) :
    decodeUtf8 (dropFinal 0x0D bytes) = some (dropFinal '\r' t) := by
  induction t generalizing bytes with
  | nil =>
    rcases encoded_of_decode h with ⟨rfl, -⟩ | ⟨_, _, _, _, -, habsurd, -⟩
    · rfl
    · exact absurd habsurd nofun
  | cons c t ih =>
    rcases encoded_of_decode h with ⟨-, habsurd⟩ | ⟨unit, c, rest, s, rfl, heq, hunit, hrest⟩
    · exact absurd habsurd nofun
    obtain ⟨rfl, rfl⟩ := List.cons.inj heq
    by_cases hnil : rest = []
    · subst hnil
      obtain rfl := Option.some.inj hrest
      rw [List.append_nil]
      rcases ascii_of_encoded (x := 0x0D) (by decide) (by decide) hunit with ⟨rfl, rfl⟩ | ⟨hbytes, hc⟩
      · rfl
      · have hchar : '\r' ∉ [c] := fun hmem => hc (List.mem_singleton.1 hmem).symm
        rw [dropFinal_of_not_mem hbytes, dropFinal_of_not_mem hchar]
        simpa [decodeUtf8] using decodeUtf8_encoded hunit []
    · have hne : t ≠ [] := by
        rintro rfl
        rcases encoded_of_decode hrest with ⟨hrest, -⟩ | ⟨_, _, _, _, -, habsurd, -⟩
        · exact hnil hrest
        · exact absurd habsurd nofun
      rw [dropFinal_append _ _ hnil, decodeUtf8_encoded hunit, ih hrest, ← List.singleton_append,
        dropFinal_append _ _ hne]
      rfl

lemma byteLines_of_decode (h : decodeUtf8 bytes = some t) : byteLines bytes = (lines t).map some := by
  have hpieces := congrArg (List.map fun p : Option Text × Bool => p.1.map (lineOf · p.2))
    (pieces_decode h)
  simpa [byteLines, byteLine?, lines, Function.comp_def] using hpieces

end LexRules.Text
