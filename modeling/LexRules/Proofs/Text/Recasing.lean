import LexRules.Binary64.Literal
import LexRules.Proofs.Text.Blank
import LexRules.Proofs.Text.LowerCase
import LexRules.Proofs.Text.Split
import LexRules.Proofs.Text.Utf8

/-! Texts that differ in the case of ASCII letters only. They have the same lower case, although a
capital sigma is written by what stands around it. Bytes that differ so hold such texts, or neither
are UTF-8. -/

namespace LexRules.Text

open Binary64 (lowerAscii)

def Recased (s t : Text) : Prop := s.map lowerAscii = t.map lowerAscii

variable {c : Char} {s t : Text}

lemma lowerAscii_induction {P : Char → Char → Prop} (hself : ∀ c, P c c)
    (hletter : ∀ k < 26, P (Char.ofNat (0x41 + k)) (Char.ofNat (0x61 + k))) (c : Char) :
    P c (lowerAscii c) := by
  rw [lowerAscii]
  split
  · rename_i hrange
    have hlow : 0x41 ≤ c.toNat := hrange.1
    have hhigh : c.toNat ≤ 0x5A := hrange.2
    have hk := hletter (c.toNat - 0x41) (by omega)
    have hcode : 0x61 + (c.toNat - 0x41) = c.toNat + 32 := by omega
    rwa [Nat.add_sub_cancel' hlow, Char.ofNat_toNat, hcode] at hk
  · exact hself c

lemma isBlank_lowerAscii (c : Char) : isBlank (lowerAscii c) = isBlank c :=
  lowerAscii_induction (P := fun c d => isBlank d = isBlank c) (fun _ => rfl) (by decide +kernel) c

lemma lowerAscii_eq_dot_iff : lowerAscii c = '.' ↔ c = '.' :=
  lowerAscii_induction (P := fun c d => d = '.' ↔ c = '.') (fun _ => Iff.rfl) (by decide) c

lemma lowerAscii_eq_sigma_iff : lowerAscii c = 'Σ' ↔ c = 'Σ' :=
  lowerAscii_induction (P := fun c d => d = 'Σ' ↔ c = 'Σ') (fun _ => Iff.rfl) (by decide) c

lemma lowerChar_lowerAscii (c : Char) : lowerChar (lowerAscii c) = lowerChar c :=
  lowerAscii_induction (P := fun c d => lowerChar d = lowerChar c) (fun _ => rfl) (by decide +kernel) c

lemma nextIsCased_map (t : Text) : nextIsCased (t.map lowerAscii) = nextIsCased t := by
  have hignorable (c : Char) : inRanges (lowerAscii c).toNat CaseTable.ignorableRanges =
      inRanges c.toNat CaseTable.ignorableRanges :=
    lowerAscii_induction (P := fun c d => inRanges d.toNat CaseTable.ignorableRanges =
      inRanges c.toNat CaseTable.ignorableRanges) (fun _ => rfl) (by decide +kernel) c
  have hcased (c : Char) : inRanges (lowerAscii c).toNat CaseTable.casedRanges =
      inRanges c.toNat CaseTable.casedRanges :=
    lowerAscii_induction (P := fun c d => inRanges d.toNat CaseTable.casedRanges =
      inRanges c.toNat CaseTable.casedRanges) (fun _ => rfl) (by decide +kernel) c
  rw [nextIsCased, nextIsCased, List.dropWhile_map]
  simp only [Function.comp_def, hignorable]
  cases t.dropWhile fun c => inRanges c.toNat CaseTable.ignorableRanges with
  | nil => rfl
  | cons c rest => exact hcased c

lemma lowerAfter_map (before t : Text) :
    lowerAfter (before.map lowerAscii) (t.map lowerAscii) = lowerAfter before t := by
  -- what is before a sigma has its letters changed too
  induction t generalizing before with
  | nil => rfl
  | cons c t ih =>
    have hunit : lowerUnit (before.map lowerAscii) (lowerAscii c) (t.map lowerAscii) =
        lowerUnit before c t := by
      simp only [lowerUnit, lowerAscii_eq_sigma_iff, nextIsCased_map, lowerChar_lowerAscii]
    rw [List.map_cons, lowerAfter_cons, hunit, ← List.map_cons, ih, lowerAfter_cons]

lemma Recased.lowerCase_eq (h : Recased s t) : lowerCase s = lowerCase t := by
  rw [lowerCase, lowerCase, ← lowerAfter_map [] s, ← lowerAfter_map [] t, h]

lemma Recased.head_eq {p : Char → Bool} (hp : ∀ c, p (lowerAscii c) = p c) (h : Recased s t) :
    s.head?.map p = t.head?.map p := by
  have hhead := congrArg (fun u : Text => u.head?.map p) h
  simpa [Function.comp_def, hp] using hhead

lemma Recased.getLast_eq {p : Char → Bool} (hp : ∀ c, p (lowerAscii c) = p c) (h : Recased s t) :
    s.getLast?.map p = t.getLast?.map p := by
  have hlast := congrArg (fun u : Text => u.getLast?.map p) h
  simpa [Function.comp_def, hp] using hlast

lemma Recased.trim_eq_self (h : Recased s t) (hs : trim s = s) : trim t = t := by
  rw [trim_eq_self_iff, trimStart_eq_self_iff, trimEnd_eq_self_iff] at hs ⊢
  rwa [← h.head_eq isBlank_lowerAscii, ← h.getLast_eq isBlank_lowerAscii]

lemma Recased.head_ne_dot (h : Recased s t) (hs : s.head? ≠ some '.') : t.head? ≠ some '.' := by
  have hhead := h.head_eq (p := (· == '.')) fun c => by
    rw [Bool.eq_iff_iff, beq_iff_eq, beq_iff_eq, lowerAscii_eq_dot_iff]
  intro hdot
  rw [hdot, Option.map_some, Option.map_eq_some_iff] at hhead
  obtain ⟨c, hc, heq⟩ := hhead
  exact hs (beq_iff_eq.1 heq ▸ hc)

def lowerByte (b : UInt8) : UInt8 := if 0x41 ≤ b ∧ b ≤ 0x5A then b + 0x20 else b

lemma lowerByte_cases (b : UInt8) : lowerByte b = b ∨
    0x41 ≤ b.toNat ∧ b.toNat ≤ 0x5A ∧ (lowerByte b).toNat = b.toNat + 0x20 := by
  rw [lowerByte]
  split
  · rename_i hrange
    simp only [UInt8.le_iff_toNat_le, UInt8.reduceToNat] at hrange
    refine Or.inr ⟨hrange.1, hrange.2, ?_⟩
    simp only [UInt8.toNat_add, UInt8.reduceToNat]
    omega
  · exact Or.inl rfl

lemma lowerByte_eq_iff {b x : UInt8} (hx : x.toNat < 0x41) : lowerByte b = x ↔ b = x := by
  rcases lowerByte_cases b with hself | ⟨hlow, -, hlower⟩
  · rw [hself]
  · rw [← UInt8.toNat_inj, ← UInt8.toNat_inj, hlower]
    omega

lemma encode_lowerAscii (c : Char) :
    String.utf8EncodeChar (lowerAscii c) = (String.utf8EncodeChar c).map lowerByte := by
  by_cases hupper : 'A' ≤ c ∧ c ≤ 'Z'
  · have hletters : ∀ k < 26, String.utf8EncodeChar (lowerAscii (Char.ofNat (0x41 + k))) =
        (String.utf8EncodeChar (Char.ofNat (0x41 + k))).map lowerByte := by decide
    have hlow : 0x41 ≤ c.toNat := hupper.1
    have hhigh : c.toNat ≤ 0x5A := hupper.2
    have hk := hletters (c.toNat - 0x41) (by omega)
    rwa [Nat.add_sub_cancel' hlow, Char.ofNat_toNat] at hk
  · -- no byte of another character is a capital letter
    rw [lowerAscii, if_neg hupper, eq_comm]
    refine (List.map_congr_left fun b hb => ?_).trans (List.map_id _)
    rcases lowerByte_cases b with hself | ⟨hlow, hhigh, -⟩
    · exact hself
    · rcases ascii_of_encoded (x := b) (by omega) (by omega) (encoded_utf8EncodeChar c) with ⟨-, rfl⟩ | ⟨hnot, -⟩
      · have hval : (Char.ofNat b.toNat).toNat = b.toNat := toNat_ofNat_eq (Or.inl (by omega))
        have hfrom : 'A'.toNat ≤ (Char.ofNat b.toNat).toNat := hval.symm ▸ hlow
        have hto : (Char.ofNat b.toNat).toNat ≤ 'Z'.toNat := hval.symm ▸ hhigh
        exact absurd ⟨hfrom, hto⟩ hupper
      · exact absurd hb hnot

lemma encodeUtf8_map (t : Text) : encodeUtf8 (t.map lowerAscii) = (encodeUtf8 t).map lowerByte := by
  rw [encodeUtf8, encodeUtf8, List.flatMap_map, List.map_flatMap]
  exact congrArg (t.flatMap ·) (funext encode_lowerAscii)

lemma exists_char_of_lower {c : Char} {unit : Bytes} (h : unit.map lowerByte = String.utf8EncodeChar c) :
    ∃ d, unit = String.utf8EncodeChar d := by
  by_cases hself : ∀ b ∈ unit, lowerByte b = b
  · exact ⟨c, by rw [← h, List.map_congr_left hself, List.map_id']⟩
  · push Not at hself
    obtain ⟨b, hb, hother⟩ := hself
    obtain ⟨hlow, hhigh, hlower⟩ := (lowerByte_cases b).resolve_left hother
    have hmem : lowerByte b ∈ String.utf8EncodeChar c := h ▸ List.mem_map_of_mem hb
    rcases ascii_of_encoded (x := lowerByte b) (by omega) (by omega) (encoded_utf8EncodeChar c) with
      ⟨hunit, -⟩ | ⟨hnot, -⟩
    · rw [hunit, List.map_eq_singleton_iff] at h
      obtain ⟨a, rfl, -⟩ := h
      obtain rfl := List.mem_singleton.1 hb
      refine ⟨Char.ofNat b.toNat, eq_of_encoded (.one ?_)⟩
      simp only [UInt8.le_iff_toNat_le, UInt8.reduceToNat]
      omega
    · exact absurd hmem hnot

lemma exists_text_of_lower {bytes : Bytes} (h : bytes.map lowerByte = encodeUtf8 t) :
    ∃ s, bytes = encodeUtf8 s := by
  induction t generalizing bytes with
  | nil => exact ⟨[], List.map_eq_nil_iff.1 h⟩
  | cons c t ih =>
    rw [encodeUtf8, List.flatMap_cons] at h
    obtain ⟨unit, rest, rfl, hunit, hrest⟩ := List.map_eq_append_iff.1 h
    obtain ⟨d, rfl⟩ := exists_char_of_lower hunit
    obtain ⟨s, rfl⟩ := ih hrest
    exact ⟨d :: s, rfl⟩

lemma decodeUtf8_map (bytes : Bytes) :
    decodeUtf8 (bytes.map lowerByte) = (decodeUtf8 bytes).map (List.map lowerAscii) := by
  cases hbytes : decodeUtf8 bytes with
  | some t =>
    rw [decodeUtf8_eq_some_iff.1 hbytes, ← encodeUtf8_map, decodeUtf8_encodeUtf8]
    rfl
  | none =>
    rw [Option.map_none, Option.eq_none_iff_forall_ne_some]
    intro t ht
    obtain ⟨s, rfl⟩ := exists_text_of_lower (decodeUtf8_eq_some_iff.1 ht)
    rw [decodeUtf8_encodeUtf8] at hbytes
    exact Option.some_ne_none s hbytes

end LexRules.Text
