import LexRules.Proofs.Extensions
import Mathlib.Data.Finset.Max
import Mathlib.Tactic.TFAE

/-! Normal forms of extensions. Entries are in lower case and have no dot before them, but white space
behind the dots that an extension is spelled with stays: the entry then starts with it, and is not the
entry for itself. -/

namespace LexRules.Extensions

structure Normal (e : Text) : Prop where
  ne_nil : e ≠ []
  trimmed : Text.trim e = e
  undotted : e.head? ≠ some '.'
  lowered : Text.lowerCase e = e

def Gapped (s : Text) : Prop :=
  ∃ dots gap rest, (∀ c ∈ dots, c = '.') ∧ Text.isBlank gap = true ∧ Text.trim s = dots ++ gap :: rest

variable {d e s : Text} {spelled : List Text}

lemma entryOf_of_normal (h : Normal e) : entryOf e = e :=
  (entryOf_of_trimmed h.trimmed h.undotted).trans h.lowered

lemma gapped_iff : Gapped s ↔ Text.trimStart (entryOf s) ≠ entryOf s := by
  rw [ne_eq, Text.trimStart_eq_self_iff, not_not, entryOf, Text.steady_isBlank.head]
  constructor
  · rintro ⟨dots, gap, rest, hdots, hgap, htrim⟩
    have hundotted : (gap :: rest).head? ≠ some '.' := by
      rintro ⟨⟩
      exact absurd hgap (by decide)
    rw [htrim, dropWhile_dots hdots hundotted]
    exact congrArg some hgap
  · intro hhead
    obtain ⟨gap, hgap, hblank⟩ := Option.map_eq_some_iff.1 hhead
    obtain ⟨rest, hrest⟩ := List.head?_eq_some_iff.1 hgap
    refine ⟨(Text.trim s).takeWhile (· == '.'), gap, rest, ?_, hblank, ?_⟩
    · intro c hc
      have hdot := List.mem_takeWhile_imp hc
      exact beq_iff_eq.1 hdot
    · rw [← hrest, List.takeWhile_append_dropWhile]

lemma trimEnd_entryOf (s : Text) : Text.trimEnd (entryOf s) = entryOf s := by
  have htrim := (Text.trim_eq_self_iff.1 (Text.trim_trim s)).2
  have hend := Text.trimEnd_of_suffix htrim (List.dropWhile_suffix (· == '.'))
  rw [Text.trimEnd_eq_self_iff] at hend ⊢
  rwa [entryOf, Text.lowerCase, Text.steady_isBlank.getLast]

lemma head_entryOf_ne_dot (s : Text) : (entryOf s).head? ≠ some '.' := by
  intro hdot
  have hhead := Text.steady_dot.head ((Text.trim s).dropWhile (· == '.'))
  have hnot := List.head?_dropWhile_not (· == '.') (Text.trim s)
  rw [← entryOf, hdot, eq_comm, Option.map_some, Option.map_eq_some_iff] at hhead
  obtain ⟨c, hc, heq⟩ := hhead
  rw [hc] at hnot
  exact Bool.false_ne_true (hnot.symm.trans heq)

lemma lowerCase_entryOf (s : Text) : Text.lowerCase (entryOf s) = entryOf s := Text.lowerCase_lowerCase _

lemma normal_entryOf_iff (hne : entryOf s ≠ []) : Normal (entryOf s) ↔ ¬ Gapped s := by
  rw [gapped_iff, not_not]
  constructor
  · exact fun h => (Text.trim_eq_self_iff.1 h.trimmed).1
  · exact fun hstart => ⟨hne, Text.trim_eq_self_iff.2 ⟨hstart, trimEnd_entryOf s⟩, head_entryOf_ne_dot s,
      lowerCase_entryOf s⟩

lemma entryOf_ne_nil_of_gapped (h : Gapped s) : entryOf s ≠ [] := by
  intro hnil
  rw [gapped_iff, hnil] at h
  exact h rfl

/-- An entry that is not trimmed gets shorter when it is spelled as an extension again. -/
lemma length_entryOf_lt (hlower : Text.lowerCase e = e) (htrim : Text.trim e ≠ e) :
    (entryOf e).length < e.length := by
  have hshort : (Text.trim e).length < e.length := by
    refine lt_of_le_of_ne (Text.trim_isInfix e).length_le fun hlength => htrim ?_
    exact (Text.trim_isInfix e).eq_of_length hlength
  have hdots : (Text.trim e).dropWhile (· == '.') <:+ Text.trim e := List.dropWhile_suffix _
  have hsame : Text.lowerCase ((Text.trim e).dropWhile (· == '.')) = (Text.trim e).dropWhile (· == '.') := by
    rw [Text.lowerCase_eq_self_iff] at hlower ⊢
    exact fun c hc => hlower c (Text.mem_of_mem_trim (hdots.subset hc))
  rw [entryOf, hsame]
  exact hdots.length_le.trans_lt hshort

lemma normal_of_trimmed (he : e ∈ (ofList spelled).entries) (htrim : Text.trim e = e) : Normal e := by
  obtain ⟨hne, s, -, rfl⟩ := mem_ofList.1 he
  exact ⟨hne, htrim, head_entryOf_ne_dot s, lowerCase_entryOf s⟩

lemma trim_of_collected (h : ofList (ofList spelled).entries = ofList spelled)
    (he : e ∈ (ofList spelled).entries) : Text.trim e = e := by
  -- the longest entry with white space around it would come from such an entry, which is longer
  by_contra htrim
  let untrimmed := (ofList spelled).entries.toFinset.filter fun d => Text.trim d ≠ d
  have hmem {d : Text} : d ∈ untrimmed ↔ d ∈ (ofList spelled).entries ∧ Text.trim d ≠ d := by
    simp [untrimmed]
  obtain ⟨longest, hlongest, hmax⟩ :=
    Finset.exists_max_image untrimmed List.length ⟨e, hmem.2 ⟨he, htrim⟩⟩
  obtain ⟨hentry, huntrimmed⟩ := hmem.1 hlongest
  rw [← h] at hentry
  obtain ⟨-, d, hd, hfrom⟩ := mem_ofList.1 hentry
  have hdtrim : Text.trim d ≠ d := by
    intro htrimmed
    have hsame := entryOf_of_normal (normal_of_trimmed hd htrimmed)
    rw [← hfrom, hsame] at huntrimmed
    exact huntrimmed htrimmed
  have hlower : Text.lowerCase d = d := by
    obtain ⟨-, s, -, rfl⟩ := mem_ofList.1 hd
    exact lowerCase_entryOf s
  have hshorter := length_entryOf_lt hlower hdtrim
  rw [hfrom] at hshorter
  exact Nat.not_lt.2 (hmax d (hmem.2 ⟨hd, hdtrim⟩)) hshorter

theorem ofList_normal_iff (spelled : List Text) :
    (∀ e ∈ (ofList spelled).entries, e ≠ [] ∧ Text.trimEnd e = e ∧ e.head? ≠ some '.' ∧
      Text.lowerCase e = e ∧ (Text.trim e = e → (ofList spelled).insert e = (false, ofList spelled))) ∧
    List.TFAE [∀ s ∈ spelled, ¬ Gapped s, ∀ e ∈ (ofList spelled).entries, Normal e,
      ofList (ofList spelled).entries = ofList spelled] := by
  refine ⟨fun e he => ?_, ?_⟩
  · have hknown : Text.trim e = e → (ofList spelled).insert e = (false, ofList spelled) := by
      intro htrim
      apply insert_of_known
      rw [entryOf_of_normal (normal_of_trimmed he htrim)]
      exact Or.inr he
    obtain ⟨hne, s, -, rfl⟩ := mem_ofList.1 he
    exact ⟨hne, trimEnd_entryOf s, head_entryOf_ne_dot s, lowerCase_entryOf s, hknown⟩
  · tfae_have 1 → 2 := by
      intro h e he
      obtain ⟨hne, s, hs, rfl⟩ := mem_ofList.1 he
      exact (normal_entryOf_iff hne).2 (h s hs)
    tfae_have 2 → 1 := by
      intro h s hs hgapped
      have hne := entryOf_ne_nil_of_gapped hgapped
      exact (normal_entryOf_iff hne).1 (h _ (mem_ofList.2 ⟨hne, s, hs, rfl⟩)) hgapped
    tfae_have 2 → 3 := by
      intro h
      refine (ordered_ofList _).ext (ordered_ofList spelled) fun d => ?_
      rw [mem_ofList]
      constructor
      · rintro ⟨-, e, he, rfl⟩
        rwa [entryOf_of_normal (h e he)]
      · exact fun hd => ⟨(h d hd).ne_nil, d, hd, entryOf_of_normal (h d hd)⟩
    tfae_have 3 → 2 := fun h e he => normal_of_trimmed he (trim_of_collected h he)
    tfae_finish

theorem ofList_not_normal : ¬ ∀ spelled : List Text, (∀ e ∈ (ofList spelled).entries, Normal e) ∧
    (∀ e ∈ (ofList spelled).entries, (ofList spelled).insert e = (false, ofList spelled)) ∧
    ofList (ofList spelled).entries = ofList spelled := by
  intro h
  have hmem : [' ', 'l', 'e', 'x'] ∈ (ofList [['.', ' ', 'l', 'e', 'x']]).entries := by decide +kernel
  have hnormal := (h [['.', ' ', 'l', 'e', 'x']]).1 _ hmem
  exact absurd hnormal.trimmed (by decide)

end LexRules.Extensions
