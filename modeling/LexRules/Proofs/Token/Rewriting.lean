import LexRules.Proofs.Token.Stream
import LexRules.Proofs.Token.Verdict

/-! Tokens read and written again. Only the spelling of a payload can change, and only a line feed
that ends a text can get lost, where no line end is written behind it. -/

namespace LexRules

namespace Scalar

/-- The scalar that is left when a line feed at the end of the payload counts as a line end. -/
def unended : Scalar → Scalar
  | .text t => .text (Text.dropFinal '\n' t)
  | s => s

@[simp] lemma kind_unended (s : Scalar) : s.unended.kind = s.kind := by
  cases s <;> rfl

lemma payload_unended (s : Scalar) : s.unended.payload = Text.dropFinal '\n' s.payload := by
  cases s with
  | text t => rfl
  | _ => exact (Text.dropFinal_of_not_mem (unbroken_payload Kind.noConfusion).newline_not_mem).symm

lemma eq_text_of_identical {t : Text} {s : Scalar} (h : Identical (.text t) s) : s = .text t := by
  cases s with
  | text u => exact congrArg _ h.symm
  | _ => exact h.elim

lemma identical_iff_of_unended {s u : Scalar} (h : Identical s.unended u) :
    Identical s u ↔ ∀ t, s = .text t → t.getLast? ≠ some '\n' := by
  cases s with
  | text t =>
    obtain rfl := eq_text_of_identical h
    have hdrop : t = Text.dropFinal '\n' t ↔ t.getLast? ≠ some '\n' :=
      eq_comm.trans Text.dropFinal_eq_self_iff
    simpa [Identical] using hdrop
  | _ => exact iff_of_true h nofun

lemma floatPayload_of_isNaN {x : Binary64} (hx : x.isNaN = true) : floatPayload x = "NaN".toList := by
  rw [floatPayload, if_neg (Binary64.not_isFinite_of_isNaN hx), Binary64.specialName, if_pos hx]

lemma payload_congr {s t : Scalar} (h : Identical s t) : s.payload = t.payload := by
  cases s <;> cases t <;> try exact h.elim
  case null.null => rfl
  case integer.integer => exact congrArg (payload ∘ integer) h
  case float.float x y =>
    rcases h with rfl | ⟨hx, hy⟩
    · rfl
    · exact (floatPayload_of_isNaN hx).trans (floatPayload_of_isNaN hy).symm
  case text.text => exact h

lemma agrees_of_identical {s t : Scalar} (h : Identical s t) : s.agrees t = true := by
  cases s <;> cases t <;> try exact h.elim
  case null.null => rfl
  case integer.integer => exact beq_iff_eq.2 h
  case float.float x y =>
    rcases h with rfl | ⟨hx, hy⟩
    · by_cases hx : x.isNaN = true
      · simp [agrees, hx]
      · simp [agrees, Binary64.isNear, Binary64.sameNumber, hx]
    · simp [agrees, hx, hy]
  case text.text => exact beq_iff_eq.2 h

variable {kind : Kind} {payload : Text} {s : Scalar}

lemma reads_of_ofPayload (h : ofPayload kind payload = .ok s) : Reads kind payload s := by
  rcases reads_or_refuses kind payload with ⟨t, hreads⟩ | ⟨flaw, hrefuses⟩
  · rw [ofPayload_of_reads hreads] at h
    exact Except.ok.inj h ▸ hreads
  · rw [ofPayload_of_refuses hrefuses] at h
    cases h

lemma Reads.kind_eq (h : Reads kind payload s) : s.kind = kind := by
  cases h <;> rfl

lemma Reads.payload_of_string (h : Reads .string payload s) : s.payload = payload := by
  cases h
  rfl

lemma Reads.payload_of_null (h : Reads .null payload s) : s.payload = [] := by
  cases h
  rfl

end Scalar

lemma Kind.tag_injective : Function.Injective Kind.tag := fun k l h => by
  have htag := congrArg ofTag h
  rw [ofTag_tag, ofTag_tag] at htag
  exact Except.ok.inj htag

namespace Token

structure Cut (data front payload : Text) : Prop where
  data_eq : data = front ++ payload
  separators : front.count separator = 4
  ends : front.getLast? = some separator

end Token

namespace Binding

variable {line : Text} {b d : Binding}

lemma token_eq (b : Binding) : b.token = b.stem ++ b.value.payload := by
  simp [token, stem]

lemma stem_setValue {value : Scalar} (h : value.kind = b.value.kind) :
    (b.setValue value).stem = b.stem := by
  simp [stem, setValue, h]

lemma Identical.encode_eq (h : Identical b d) : b.encode = d.encode := by
  obtain ⟨hname, hspace, hvalue⟩ := h
  simp [encode, token, hname, hspace, Scalar.kind_eq_of_identical hvalue, Scalar.payload_congr hvalue]

lemma Identical.agrees (h : Identical b d) : b.agrees d = true := by
  obtain ⟨hname, hspace, hvalue⟩ := h
  simp [Binding.agrees, hname, hspace, Scalar.agrees_of_identical hvalue]

lemma decode_encode_identical (h : b.Keyed) : ∃ d, decode b.encode = .ok d ∧ Identical b d := by
  obtain ⟨d, hd, hname, hspace, hvalue⟩ := decode_encode_keyed h
  exact ⟨d, hd, hname.symm, hspace.symm, hvalue⟩

lemma decode_congr {line other : Text} (h : Text.dropFinal '\n' line = Text.dropFinal '\n' other) :
    decode line = decode other := by
  simp only [decode, h]

lemma decode_token (b : Binding) : decode b.token = decode (b.setValue b.value.unended).encode := by
  apply decode_congr
  rw [dropFinal_encode, token_eq, token_eq, dropFinal_stem (by decide),
    stem_setValue b.value.kind_unended]
  exact congrArg _ b.value.payload_unended.symm

/-- The token of a binding that was made is read as that binding, but for one line feed at the end
of a text, which is taken for the line end. -/
theorem decode_token_made (h : b.Made) :
    ∃ d, decode b.token = .ok d ∧ Identical (b.setValue b.value.unended) d ∧
      (Identical b d ↔ ∀ t, b.value = .text t → t.getLast? ≠ some '\n') := by
  obtain ⟨d, hd, hsame⟩ := decode_encode_identical (h.lined.toKeyed.setValue b.value.unended)
  obtain ⟨hname, hspace, hvalue⟩ := hsame
  refine ⟨d, b.decode_token.trans hd, ⟨hname, hspace, hvalue⟩, ?_⟩
  rw [← Scalar.identical_iff_of_unended hvalue]
  exact ⟨fun hback => hback.2.2, fun hback => ⟨hname, hspace, hback⟩⟩

theorem decode_token_made_twice_ended :
    Made ⟨['a'], ['b'], .text "x\n\n".toList⟩ ∧
    ∃ d, decode (token ⟨['a'], ['b'], .text "x\n\n".toList⟩) = .ok d ∧
      Identical ⟨['a'], ['b'], .text "x\n".toList⟩ d ∧
      (Identical ⟨['a'], ['b'], .text "x\n\n".toList⟩ d ↔
        ∀ t, Scalar.text "x\n\n".toList = .text t → t.getLast? ≠ some '\n') := by
  have hmake : make ['a'] ['b'] (.text "x\n\n".toList) =
      .ok ⟨['a'], ['b'], .text "x\n\n".toList⟩ := rfl
  have hmade := Made.make hmake
  exact ⟨hmade, decode_token_made hmade⟩

theorem decode_token_ended :
    make ['a'] ['b'] (.text "x\n".toList) = .ok ⟨['a'], ['b'], .text "x\n".toList⟩ ∧
    decode (token ⟨['a'], ['b'], .text "x\n".toList⟩) = .ok ⟨['a'], ['b'], .text ['x']⟩ ∧
    ¬ ∀ b : Binding, b.Made → ∃ d, decode b.token = .ok d ∧ Identical b d := by
  have hmake : make ['a'] ['b'] (.text "x\n".toList) = .ok ⟨['a'], ['b'], .text "x\n".toList⟩ := rfl
  have hfields : Fields (Text.dropFinal '\n' (token ⟨['a'], ['b'], .text "x\n".toList⟩)) ['a'] ['b']
      (Kind.tag .string) ['x'] := by
    refine ⟨?_, ?_, ?_, ?_⟩ <;> decide
  have hread : decode (token ⟨['a'], ['b'], .text "x\n".toList⟩) = .ok ⟨['a'], ['b'], .text ['x']⟩ :=
    decode_of_fields hfields (by decide)
  refine ⟨hmake, hread, fun hall => ?_⟩
  obtain ⟨d, hd, hsame⟩ := hall _ (.make hmake)
  obtain rfl := Except.ok.inj (hread.symm.trans hd)
  exact absurd hsame.2.2 (by decide : ¬ "x\n".toList = ['x'])

/-- How a binding is written, beside a token that it was read from, given without its line end. -/
structure Rewrites (data : Text) (b : Binding) (front given : Text) : Prop extends
    Token.Cut data front given where
  encode_eq : b.encode = front ++ b.value.payload ++ ['\n']
  tag : Token.piece data 3 = b.value.kind.tag
  reads : Scalar.ofPayload b.value.kind given = .ok b.value
  string : Token.piece data 3 = Kind.tag .string → b.value.payload = given
  null : Token.piece data 3 = Kind.tag .null → b.value.payload = []
  stable : ∃ d, decode b.encode = .ok d ∧ Identical b d ∧ b.agrees d = true ∧ d.encode = b.encode

lemma count_stem (h : b.Keyed) : b.stem.count Token.separator = 4 := by
  have hheader : Token.header.count Token.separator = 0 := by decide
  simp [stem, hheader, List.count_eq_zero_of_not_mem h.separator_not_mem_name,
    List.count_eq_zero_of_not_mem h.separator_not_mem_space,
    List.count_eq_zero_of_not_mem b.value.kind.separator_not_mem_tag]

lemma stable_of_keyed (h : b.Keyed) : ∃ d, decode b.encode = .ok d ∧ Identical b d ∧
    b.agrees d = true ∧ d.encode = b.encode := by
  obtain ⟨d, hd, hsame⟩ := decode_encode_identical h
  exact ⟨d, hd, hsame, hsame.agrees, hsame.encode_eq.symm⟩

theorem rewrites_decode (h : decode line = .ok b) :
    ∃ front given, Rewrites (Text.dropFinal '\n' line) b front given := by
  obtain ⟨kind, given, hfields, -, hvalue⟩ := fields_of_decode h
  have hkeyed := keyed_of_decode h
  have hreads := Scalar.reads_of_ofPayload hvalue
  obtain rfl := hreads.kind_eq
  have htag : Token.piece (Text.dropFinal '\n' line) 3 = b.value.kind.tag := by
    rw [Token.piece, hfields.splitOn]
    rfl
  have hkind {kind : Kind} (hpiece : Token.piece (Text.dropFinal '\n' line) 3 = kind.tag) :
      Scalar.Reads kind given b.value := Kind.tag_injective (htag.symm.trans hpiece) ▸ hreads
  have hcut : Token.Cut (Text.dropFinal '\n' line) b.stem given :=
    ⟨by simpa [stem] using hfields.1, count_stem hkeyed, List.getLast?_concat⟩
  refine ⟨b.stem, given, hcut, b.encode_eq, htag, hvalue, ?string, ?null, stable_of_keyed hkeyed⟩
  case string => exact fun hpiece => (hkind hpiece).payload_of_string
  case null => exact fun hpiece => (hkind hpiece).payload_of_null

theorem rewrites_decode_padded_number :
    decode "LexTok#a\nb##dtLong#-007\n".toList = .ok ⟨"a\nb".toList, [], .integer (-7)⟩ ∧
    ∃ front given, Rewrites "LexTok#a\nb##dtLong#-007".toList ⟨"a\nb".toList, [], .integer (-7)⟩
      front given := by
  have hfields : Fields (Text.dropFinal '\n' "LexTok#a\nb##dtLong#-007\n".toList) "a\nb".toList []
      (Kind.tag .long) "-007".toList := by
    refine ⟨?_, ?_, ?_, ?_⟩ <;> decide
  have hread : decode "LexTok#a\nb##dtLong#-007\n".toList =
      .ok ⟨"a\nb".toList, [], .integer (-7)⟩ := by
    rw [decode_of_fields hfields (by decide)]
    rfl
  exact ⟨hread, rewrites_decode hread⟩

end Binding

end LexRules
