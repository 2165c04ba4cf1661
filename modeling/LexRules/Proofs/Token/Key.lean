import LexRules.Proofs.Token.Stream

/-! Keys of bindings, whichever way they came about. Making a binding keeps line ends out of its key,
and reading one from a token line does not. -/

namespace LexRules

namespace Binding

variable {b : Binding}

lemma checkPart_of_unbroken (part : KeyPart) {t : Text} (hsep : Token.separator ∉ t)
    (h : Text.Unbroken t) : checkPart part t = .ok () := by
  have hany : ¬ t.any Token.isReserved = true := by
    rw [List.any_eq_true]
    rintro ⟨c, hc, hreserved⟩
    have hne : c ≠ Token.separator := fun heq => hsep (heq ▸ hc)
    simp [Token.isReserved, hne, h c hc] at hreserved
  rw [checkPart, if_neg hany]

lemma make_iff_lined : make b.name b.space b.value = .ok b ↔ b.Lined := by
  refine ⟨lined_of_make, fun h => ?_⟩
  rw [make, checkPart_of_unbroken .name h.separator_not_mem_name h.name_unbroken,
    checkPart_of_unbroken .space h.separator_not_mem_space h.space_unbroken, if_neg h.name_ne_nil]
  rfl

lemma lined_run {steps : List Step} (h : run steps = some b)
    (hread : ∀ line, .decode line ∈ steps → ∀ d, decode line = .ok d → d.Lined) : b.Lined := by
  have hset : ∀ (d : Binding) value, d.Lined → (d.setValue value).Lined := fun d value hd =>
    ⟨hd.toKeyed.setValue value, hd.name_unbroken, hd.space_unbroken⟩
  refine run_forall hset (fun step hstep d hgives => ?_) h
  cases step with
  | make name space value => exact lined_of_make hgives
  | makeDefault name value => exact lined_of_make hgives
  | decode line => exact hread line hstep d hgives
  | setValue value => exact hgives.elim

lemma exists_run_of_keyed (h : b.Keyed) : ∃ steps, run steps = some b := by
  obtain ⟨d, hd, hname, hspace, -⟩ := decode_encode_keyed h
  have hvalue : d.setValue b.value = b := by
    rw [setValue, hname, hspace]
  refine ⟨[.decode b.encode, .setValue b.value], ?_⟩
  rw [run, List.foldl_cons, List.foldl_cons, List.foldl_nil, Step.apply, hd]
  exact congrArg some hvalue

structure KeyLaw (b : Binding) : Prop where
  reached : (∃ steps, run steps = some b) ↔ b.Keyed
  makable : make b.name b.space b.value = .ok b ↔ b.Lined
  /-- Line ends come into a key from token lines only. -/
  lined : (∃ steps, run steps = some b ∧
    ∀ line, .decode line ∈ steps → ∀ d, decode line = .ok d → d.Lined) ↔ b.Lined

theorem key_law (b : Binding) : b.KeyLaw := by
  constructor
  case reached => exact ⟨fun ⟨_, h⟩ => keyed_run h, exists_run_of_keyed⟩
  case makable => exact make_iff_lined
  case lined =>
    refine ⟨fun ⟨_, h, hread⟩ => lined_run h hread, fun h => ?_⟩
    refine ⟨[.make b.name b.space b.value], ?_, by simp⟩
    rw [run, List.foldl_cons, List.foldl_nil, Step.apply, make_iff_lined.2 h]
    rfl

theorem decode_broken_key :
    run [.decode "LexTok#a\nb#c\r#dtNull#".toList] = some ⟨"a\nb".toList, "c\r".toList, .null⟩ ∧
      make "a\nb".toList "c\r".toList .null =
        .error (.badArgument (.forbiddenCharacter .name "a\nb".toList)) ∧
      ¬ ∀ steps b, run steps = some b → b.Lined := by
  have hfields : Fields (Text.dropFinal '\n' "LexTok#a\nb#c\r#dtNull#".toList) "a\nb".toList
      "c\r".toList (Kind.tag .null) [] := by
    refine ⟨?_, ?_, ?_, ?_⟩ <;> decide
  have hread := decode_of_fields hfields (by decide)
  have hrun : run [.decode "LexTok#a\nb#c\r#dtNull#".toList] =
      some ⟨"a\nb".toList, "c\r".toList, .null⟩ := by
    rw [run, List.foldl_cons, List.foldl_nil, Step.apply, hread]
    rfl
  refine ⟨hrun, by decide, fun h => ?_⟩
  exact absurd rfl ((h _ _ hrun).name_unbroken '\n' (by decide)).1

end Binding

end LexRules
