import LexRules.Proofs.Binary64.Shortest

/-! Every double is read back from its text: finite ones digit by digit, whichever layout their
digits have, the others by their names. -/

namespace LexRules.Binary64

lemma takeWhile_digits {ws rest : Text} (hws : ∀ c ∈ ws, Text.isDigit c = true)
    (hrest : ∀ c ∈ rest.head?, Text.isDigit c = false) : (ws ++ rest).takeWhile Text.isDigit = ws := by
  rw [List.takeWhile_append_of_pos hws]
  cases rest with
  | nil => simp
  | cons c rest => simp [hrest c rfl]

lemma dropWhile_digits {ws rest : Text} (hws : ∀ c ∈ ws, Text.isDigit c = true)
    (hrest : ∀ c ∈ rest.head?, Text.isDigit c = false) :
    (ws ++ rest).dropWhile Text.isDigit = rest := by
  rw [List.dropWhile_append_of_pos hws]
  cases rest with
  | nil => rfl
  | cons c rest => simp [hrest c rfl]

lemma splitFraction_point {fs rest : Text} (hfs : ∀ c ∈ fs, Text.isDigit c = true)
    (hrest : ∀ c ∈ rest.head?, Text.isDigit c = false) :
    splitFraction ('.' :: fs ++ rest) = (fs, rest) := by
  simp only [splitFraction, List.cons_append, takeWhile_digits hfs hrest, dropWhile_digits hfs hrest]

lemma splitFraction_mark (rest : Text) : splitFraction ('e' :: rest) = ([], 'e' :: rest) := rfl

lemma readNumber_eq {ws fs tail rest : Text} (hws : ∀ c ∈ ws, Text.isDigit c = true) (hne : ws ≠ [])
    (htail : ∀ c ∈ tail.head?, Text.isDigit c = false) (hsplit : splitFraction tail = (fs, rest)) :
    readNumber? (ws ++ tail) = (readExponent? rest).map fun exponent =>
      ofDecimal (Text.digitsValue (ws ++ fs)) (exponent - fs.length) := by
  rw [readNumber?, takeWhile_digits hws htail, dropWhile_digits hws htail, hsplit]
  simp only [hne, false_and, if_false]

lemma readNumber_fraction (ws fs : Text) (hdigits : ∀ c ∈ ws ++ fs, Text.isDigit c = true)
    (hne : ws ≠ []) :
    readNumber? (ws ++ '.' :: fs) = some (ofDecimal (Text.digitsValue (ws ++ fs)) (-fs.length)) := by
  have hws : ∀ c ∈ ws, Text.isDigit c = true := fun c hc => hdigits c (List.mem_append_left fs hc)
  have hfs : ∀ c ∈ fs, Text.isDigit c = true := fun c hc => hdigits c (List.mem_append_right ws hc)
  have hsplit : splitFraction ('.' :: fs) = (fs, []) := by
    have h : splitFraction ('.' :: fs ++ []) = (fs, []) := splitFraction_point hfs (by simp)
    rwa [List.append_nil] at h
  rw [readNumber_eq hws hne (by rintro c ⟨⟩; exact Text.isDigit_point) hsplit]
  simp [readExponent?]

lemma splitSign_of_digit {c : Char} {t : Text} (hc : Text.isDigit c = true) :
    splitSign (c :: t) = (false, c :: t) := by
  have hsign : c ≠ '-' ∧ c ≠ '+' :=
    Text.forall_digit (p := fun c => c ≠ '-' ∧ c ≠ '+') (by decide) c hc
  unfold splitSign
  split <;> simp_all

lemma splitSign_ofNat (n : Nat) : splitSign (Text.ofNat n) = (false, Text.ofNat n) := by
  cases ht : Text.ofNat n with
  | nil => exact absurd ht (Text.ofNat_ne_nil n)
  | cons c t => exact splitSign_of_digit (Text.all_isDigit_ofNat n c (ht ▸ List.mem_cons_self))

lemma readExponent_of_sign {t : Text} {negative : Bool} {n : Nat}
    (ht : splitSign t = (negative, Text.ofNat n)) :
    readExponent? ('e' :: t) = some (if negative then -(n : Int) else n) := by
  have hall : (Text.ofNat n).all Text.isDigit = true := List.all_eq_true.2 (Text.all_isDigit_ofNat n)
  simp [readExponent?, ht, hall, Text.ofNat_ne_nil]

lemma readExponent_ofInt (plus : Bool) (e : Int) :
    readExponent? ('e' :: ((if plus && decide (0 ≤ e) then ['+'] else []) ++ Text.ofInt e)) =
      some e := by
  cases e with
  | ofNat n =>
    cases plus with
    | false => exact readExponent_of_sign (splitSign_ofNat n)
    | true => exact readExponent_of_sign (t := '+' :: Text.ofNat n) rfl
  | negSucc n =>
    have hplus : (plus && decide (0 ≤ Int.negSucc n)) = false := by simp
    rw [hplus]
    exact readExponent_of_sign (t := '-' :: Text.ofNat (n + 1)) rfl

lemma all_isDigit_zeros (n : Nat) : ∀ d ∈ List.replicate n '0', Text.isDigit d = true := by
  intro d hd
  exact List.eq_of_mem_replicate hd ▸ Text.isDigit_zero

lemma readNumber_zeros_before (c n : Nat) :
    readNumber? (['0', '.'] ++ List.replicate n '0' ++ Text.ofNat c) =
      some (ofDecimal c (-(n + (Text.ofNat c).length))) := by
  have hdigits : ∀ d ∈ ['0'] ++ (List.replicate n '0' ++ Text.ofNat c), Text.isDigit d = true := by
    simp only [List.mem_append, List.mem_singleton]
    rintro d (rfl | hd | hd)
    · exact Text.isDigit_zero
    · exact all_isDigit_zeros n d hd
    · exact Text.all_isDigit_ofNat c d hd
  have hvalue : Text.digitsValue (['0'] ++ (List.replicate n '0' ++ Text.ofNat c)) = c := by
    rw [Text.digitsValue_append, Text.digitsValue_append, Text.digitsValue_zeros,
      Text.digitsValue_ofNat, show Text.digitsValue ['0'] = 0 from by decide]
    omega
  have hread := readNumber_fraction ['0'] (List.replicate n '0' ++ Text.ofNat c) hdigits (by simp)
  rw [hvalue, List.length_append, List.length_replicate, Nat.cast_add] at hread
  exact hread

lemma readNumber_zeros_behind (c n : Nat) {whole : Nat} (hpos : 0 < whole)
    (hwhole : whole < (Text.ofNat c).length + n) :
    readNumber? ((Text.ofNat c ++ List.replicate n '0').take whole ++
      '.' :: (Text.ofNat c ++ List.replicate n '0').drop whole) =
        some (ofDecimal c (whole - (Text.ofNat c).length)) := by
  generalize hp : Text.ofNat c ++ List.replicate n '0' = padded
  have hdigits : ∀ d ∈ padded.take whole ++ padded.drop whole, Text.isDigit d = true := by
    rw [List.take_append_drop, ← hp]
    simp only [List.mem_append]
    rintro d (hd | hd)
    · exact Text.all_isDigit_ofNat c d hd
    · exact all_isDigit_zeros n d hd
  have hlength : padded.length = (Text.ofNat c).length + n := by
    rw [← hp, List.length_append, List.length_replicate]
  have hne : padded.take whole ≠ [] := by
    rw [← List.length_pos_iff, List.length_take]
    omega
  have hvalue : Text.digitsValue padded = c * 10 ^ n := by
    rw [← hp, Text.digitsValue_append, Text.digitsValue_zeros, Text.digitsValue_ofNat,
      List.length_replicate, Nat.add_zero]
  have hexp : -((padded.drop whole).length : Int) + n = whole - (Text.ofNat c).length := by
    rw [List.length_drop, hlength]
    omega
  rw [readNumber_fraction _ _ hdigits hne, List.take_append_drop, hvalue, ofDecimal_mul_pow, hexp]

lemma readNumber_positional (c : Nat) (e : Int) :
    readNumber? (positional (Text.ofNat c) (e + (Text.ofNat c).length - 1)) =
      some (ofDecimal c e) := by
  have hlength : 0 < (Text.ofNat c).length := List.length_pos_iff.2 (Text.ofNat_ne_nil c)
  rw [positional]
  split
  · rw [readNumber_zeros_before]
    congr 2
    omega
  · simp only
    rw [readNumber_zeros_behind c _ (by omega) (by omega)]
    congr 2
    omega

lemma readNumber_scientific (layout : Layout) (c : Nat) (e : Int) :
    readNumber? (scientific layout (Text.ofNat c) (e + (Text.ofNat c).length - 1)) =
      some (ofDecimal c e) := by
  have hvalue := Text.digitsValue_ofNat c
  have hexponent := readExponent_ofInt layout.plusSign (e + (Text.ofNat c).length - 1)
  have hall := Text.all_isDigit_ofNat c
  cases hd : Text.ofNat c with
  | nil => exact absurd hd (Text.ofNat_ne_nil c)
  | cons d fs =>
    rw [hd] at hvalue hexponent hall
    have hws : ∀ x ∈ [d], Text.isDigit x = true := fun x hx =>
      hall x (List.mem_singleton.1 hx ▸ List.mem_cons_self)
    have hfs : ∀ x ∈ fs, Text.isDigit x = true := fun x hx => hall x (List.mem_cons_of_mem d hx)
    generalize hs : 'e' :: ((if layout.plusSign && decide (0 ≤ e + (d :: fs).length - 1) then ['+']
      else []) ++ Text.ofInt (e + (d :: fs).length - 1)) = mark at hexponent
    have hmark : ∀ x ∈ mark.head?, Text.isDigit x = false := by
      rintro x hx
      rw [← hs] at hx
      exact Option.some.inj hx ▸ Text.isDigit_exponentMark
    have htext : scientific layout (d :: fs) (e + (d :: fs).length - 1) =
        [d] ++ ((if fs = [] then [] else '.' :: fs) ++ mark) := by
      rw [← hs]
      cases fs <;> simp [scientific]
    have hsplit : splitFraction ((if fs = [] then [] else '.' :: fs) ++ mark) = (fs, mark) := by
      split
      · rename_i hnil
        rw [hnil, ← hs]
        exact splitFraction_mark _
      · exact splitFraction_point hfs hmark
    have htail : ∀ x ∈ ((if fs = [] then [] else '.' :: fs) ++ mark).head?,
        Text.isDigit x = false := by
      split
      · exact hmark
      · rintro x ⟨⟩
        exact Text.isDigit_point
    have hexp : e + (d :: fs).length - 1 - fs.length = e := by
      rw [List.length_cons]
      omega
    rw [htext, readNumber_eq hws (by simp) htail hsplit, hexponent, Option.map_some, hexp,
      List.singleton_append, hvalue]

lemma readNumber_magnitudeText (layout : Layout) {m : Nat} (hm : m < infinity) :
    readNumber? (layout.magnitudeText m) = some m := by
  have hshortest := ofDecimal_shortest layout.tie hm
  rw [Layout.magnitudeText]
  generalize shortest layout.tie m = p at hshortest
  obtain ⟨c, e⟩ := p
  simp only at hshortest ⊢
  split
  · rw [readNumber_positional, hshortest]
  · rw [readNumber_scientific, hshortest]

lemma magnitudeText_starts_with_digit (layout : Layout) (m : Nat) :
    ∃ d t, Text.isDigit d = true ∧ layout.magnitudeText m = d :: t := by
  rw [Layout.magnitudeText]
  obtain ⟨c, e⟩ := shortest layout.tie m
  simp only
  cases hd : Text.ofNat c with
  | nil => exact absurd hd (Text.ofNat_ne_nil c)
  | cons d t =>
    have hdigit : Text.isDigit d = true := Text.all_isDigit_ofNat c d (hd ▸ List.mem_cons_self)
    split
    · rw [positional]
      split
      · exact ⟨'0', _, Text.isDigit_zero, rfl⟩
      · exact ⟨d, _, hdigit, rfl⟩
    · exact ⟨d, _, hdigit, rfl⟩

lemma readMagnitude_of_digit {d : Char} {t : Text} (hd : Text.isDigit d = true) :
    readMagnitude? (d :: t) = readNumber? (d :: t) := by
  have hletter : lowerAscii d ≠ 'n' ∧ lowerAscii d ≠ 'i' :=
    Text.forall_digit (p := fun c => lowerAscii c ≠ 'n' ∧ lowerAscii c ≠ 'i') (by decide) d hd
  rw [readMagnitude?]
  simp [hletter.1, hletter.2]

lemma ofMagnitude_magnitude (x : Binary64) : ofMagnitude x.isNegative x.magnitude = x := by
  obtain ⟨bits⟩ := x
  have hbits := bits.toNat_lt
  simp only [ofMagnitude, isNegative, magnitude, Nat.pow_eq, Binary64.mk.injEq]
  apply UInt64.toNat_inj.1
  rw [UInt64.toNat_ofNat']
  by_cases h : 2 ^ 63 ≤ bits.toNat
  · simp only [h, decide_true, if_true]
    omega
  · simp only [h, decide_false, Bool.false_eq_true, if_false]
    omega

lemma ofLiteral_finiteText (layout : Layout) {x : Binary64} (hx : x.isFinite = true) :
    ofLiteral? (layout.finiteText x) = some x := by
  obtain ⟨d, t, hd, htext⟩ := magnitudeText_starts_with_digit layout x.magnitude
  have hread := readNumber_magnitudeText layout (of_decide_eq_true hx)
  have hback := ofMagnitude_magnitude x
  rw [htext] at hread
  rw [ofLiteral?, Layout.finiteText, htext]
  cases hn : x.isNegative with
  | false =>
    rw [hn] at hback
    simp [splitSign_of_digit hd, readMagnitude_of_digit hd, hread, hback]
  | true =>
    rw [hn] at hback
    simp [splitSign, readMagnitude_of_digit hd, hread, hback]

lemma ofLiteral_infinity (negative : Bool) :
    ofLiteral? (if negative then "-inf".toList else "inf".toList) =
      some (ofMagnitude negative infinity) := by
  cases negative <;> rfl

lemma ofLiteral_specialName {x : Binary64} (hx : x.isFinite = false) :
    ∃ y, ofLiteral? x.specialName = some y ∧ (x = y ∨ x.isNaN = true ∧ y.isNaN = true) := by
  rw [specialName]
  by_cases hnan : x.isNaN = true
  · rw [if_pos hnan]
    exact ⟨ofMagnitude false quietNaN, rfl, Or.inr ⟨hnan, by decide⟩⟩
  · have hinfinite : x.magnitude = infinity := by
      simp only [isNaN, isFinite, decide_eq_true_eq, decide_eq_false_iff_not] at hnan hx
      omega
    have hback := ofMagnitude_magnitude x
    rw [hinfinite] at hback
    rw [if_neg hnan]
    refine ⟨x, ?_, Or.inl rfl⟩
    rw [ofLiteral_infinity, hback]

lemma not_isFinite_of_isNaN {x : Binary64} (hx : x.isNaN = true) : ¬ x.isFinite = true := by
  simp only [isNaN, isFinite, decide_eq_true_eq] at hx ⊢
  omega

lemma specialName_inj {x y : Binary64} (hx : x.isFinite = false) (hy : y.isFinite = false)
    (h : x.specialName = y.specialName) : x = y ∨ x.isNaN = true ∧ y.isNaN = true := by
  obtain ⟨u, hread, hu⟩ := ofLiteral_specialName hx
  obtain ⟨v, hread', hv⟩ := ofLiteral_specialName hy
  rw [h, hread'] at hread
  obtain rfl := Option.some.inj hread
  rcases hu with rfl | ⟨hx, hu⟩
  · rcases hv with rfl | ⟨hy, hv⟩
    · exact Or.inl rfl
    · exact Or.inr ⟨hv, hy⟩
  · rcases hv with rfl | ⟨hy, -⟩
    · exact Or.inr ⟨hx, hu⟩
    · exact Or.inr ⟨hx, hy⟩

lemma quote_not_head_finiteText (layout : Layout) (x : Binary64) :
    (layout.finiteText x).head? ≠ some '"' := by
  obtain ⟨d, t, hd, htext⟩ := magnitudeText_starts_with_digit layout x.magnitude
  rw [Layout.finiteText, htext]
  cases x.isNegative with
  | true => exact nofun
  | false =>
    rintro ⟨⟩
    exact absurd hd (by decide)

end LexRules.Binary64

namespace LexRules

/-- Every double is read back from its payload, a NaN as some NaN. -/
lemma readFloat_floatPayload (x : Binary64) :
    ∃ y, readFloat (Scalar.floatPayload x) = .ok y ∧ (x = y ∨ x.isNaN = true ∧ y.isNaN = true) := by
  obtain ⟨y, hread, hy⟩ : ∃ y, Binary64.ofLiteral? (Scalar.floatPayload x) = some y ∧
      (x = y ∨ x.isNaN = true ∧ y.isNaN = true) := by
    rw [Scalar.floatPayload]
    by_cases hx : x.isFinite = true
    · rw [if_pos hx]
      exact ⟨x, Binary64.ofLiteral_finiteText _ hx, Or.inl rfl⟩
    · rw [if_neg hx]
      exact Binary64.ofLiteral_specialName (Bool.eq_false_iff.2 hx)
  have hne : Scalar.floatPayload x ≠ [] := by
    intro h
    simp [h, Binary64.ofLiteral?, Binary64.splitSign, Binary64.readMagnitude?, Binary64.readNumber?,
      Binary64.splitFraction] at hread
  refine ⟨y, ?_, hy⟩
  rw [readFloat, if_neg hne, hread]

end LexRules
