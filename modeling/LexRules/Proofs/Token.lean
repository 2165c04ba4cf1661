import LexRules.Proofs.Binary64.Literal
import LexRules.Proofs.Cursor
import LexRules.Token

/-! A binding is read back from the token line that it is written as, whatever text or number it
holds and whichever way it came about. -/

namespace LexRules

lemma bind_eq_ok {ε α β : Type} {x : Except ε α} {f : α → Except ε β} {b : β} :
    (x >>= f) = .ok b ↔ ∃ a, x = .ok a ∧ f a = .ok b := by
  cases x with
  | error e => exact ⟨nofun, nofun⟩
  | ok a => exact ⟨fun h => ⟨a, rfl, h⟩, fun ⟨_, ha, h⟩ => Except.ok.inj ha ▸ h⟩

namespace Scalar

/-- The same scalar exactly, where one NaN stands for all. -/
def Identical : Scalar → Scalar → Prop
  | .null, .null => True
  | .integer m, .integer n => m = n
  | .float x, .float y => x = y ∨ x.isNaN = true ∧ y.isNaN = true
  | .text s, .text t => s = t
  | _, _ => False

lemma kind_eq_of_identical {s t : Scalar} (h : Identical s t) : s.kind = t.kind := by
  cases s <;> cases t <;> first | rfl | exact h.elim

lemma ofPayload_payload (s : Scalar) :
    ∃ t, ofPayload s.kind s.payload = .ok t ∧ Identical s t := by
  cases s with
  | null => exact ⟨.null, rfl, trivial⟩
  | integer n =>
    refine ⟨.integer n, ?_, rfl⟩
    simp only [kind, payload, ofPayload, readInteger_ofInt]
    rfl
  | float x =>
    obtain ⟨y, hread, hy⟩ := readFloat_floatPayload x
    refine ⟨.float y, ?_, hy⟩
    simp only [kind, payload, ofPayload, hread]
    rfl
  | text t => exact ⟨.text t, rfl, rfl⟩

end Scalar

namespace Kind

lemma ofTag_tag (k : Kind) : ofTag k.tag = .ok k := by
  cases k <;> rfl

lemma tag_of_ofTag {tag : Text} {k : Kind} (h : ofTag tag = .ok k) : tag = k.tag := by
  rw [ofTag] at h
  split at h
  · rename_i hfind
    obtain rfl := Except.ok.inj h
    have htag := List.find?_some (p := fun kind : Kind => kind.tag == tag) hfind
    exact (beq_iff_eq.1 htag).symm
  · exact absurd h nofun

lemma separator_not_mem_tag (k : Kind) : Token.separator ∉ k.tag := by
  cases k <;> decide

end Kind

namespace Binding

structure Keyed (b : Binding) : Prop where
  name_ne_nil : b.name ≠ []
  separator_not_mem_name : Token.separator ∉ b.name
  separator_not_mem_space : Token.separator ∉ b.space

lemma Keyed.setValue {b : Binding} (h : b.Keyed) (value : Scalar) : (b.setValue value).Keyed :=
  ⟨h.1, h.2, h.3⟩

lemma separator_not_mem_of_checkPart {part : KeyPart} {t : Text} (h : checkPart part t = .ok ()) :
    Token.separator ∉ t := by
  intro hmem
  have hany : t.any Token.isReserved = true :=
    List.any_eq_true.2 ⟨Token.separator, hmem, by decide⟩
  simp [checkPart, hany] at h

lemma keyed_of_make {name space : Text} {value : Scalar} {b : Binding}
    (h : make name space value = .ok b) : b.Keyed := by
  simp only [make] at h
  split at h
  · exact absurd h nofun
  · rename_i hname
    obtain ⟨_, hn, h⟩ := bind_eq_ok.1 h
    obtain ⟨_, hs, h⟩ := bind_eq_ok.1 h
    obtain rfl := Except.ok.inj h
    exact ⟨hname, separator_not_mem_of_checkPart hn, separator_not_mem_of_checkPart hs⟩

def Fields (line name space tag payload : Text) : Prop :=
  line = Token.header ++ Token.separator :: (name ++ Token.separator :: (space ++
    Token.separator :: (tag ++ Token.separator :: payload))) ∧
  Token.separator ∉ name ∧ Token.separator ∉ space ∧ Token.separator ∉ tag

lemma field_eq_ok {gap : TokenGap} {c next : Cursor} {t : Text} (h : field gap c = .ok (t, next)) :
    c.remaining = t ++ Token.separator :: next.remaining ∧ Token.separator ∉ t := by
  rw [field] at h
  split at h
  · rename_i hnext
    obtain rfl := Except.ok.inj h
    exact Cursor.remaining_takeField hnext
  · exact absurd h nofun

lemma field_of_remaining (gap : TokenGap) {c : Cursor} {t rest : Text}
    (h : c.remaining = t ++ Token.separator :: rest) (ht : Token.separator ∉ t) :
    ∃ next, field gap c = .ok (t, next) ∧ next.remaining = rest := by
  obtain ⟨next, hnext, hrest⟩ := Cursor.takeField_remaining h ht
  exact ⟨next, by rw [field, hnext], hrest⟩

lemma afterHeader_eq_ok {line : Text} {c : Cursor} (h : afterHeader line = .ok c) :
    line = Token.header ++ Token.separator :: c.remaining := by
  rw [afterHeader] at h
  split at h
  · exact absurd h nofun
  · rename_i found next hnext
    split at h
    · rename_i hfound
      obtain rfl := Except.ok.inj h
      exact hfound ▸ (Cursor.remaining_takeField hnext).1
    · exact absurd h nofun

lemma afterHeader_of_line (rest : Text) :
    ∃ c, afterHeader (Token.header ++ Token.separator :: rest) = .ok c ∧ c.remaining = rest := by
  have hsep : Token.separator ∉ Token.header := by decide
  obtain ⟨next, hnext, hrest⟩ := Cursor.takeField_remaining
    (c := Cursor.start (Token.header ++ Token.separator :: rest)) rfl hsep
  exact ⟨next, by simp only [afterHeader, hnext, if_true], hrest⟩

lemma fields_of_decode {line : Text} {b : Binding} (h : decode line = .ok b) :
    ∃ kind payload, Fields (Text.dropFinal '\n' line) b.name b.space (Kind.tag kind) payload ∧
      b.name ≠ [] ∧ Scalar.ofPayload kind payload = .ok b.value := by
  simp only [decode] at h
  obtain ⟨c₀, hheader, h⟩ := bind_eq_ok.1 h
  obtain ⟨⟨name, c₁⟩, hname, h⟩ := bind_eq_ok.1 h
  obtain ⟨⟨space, c₂⟩, hspace, h⟩ := bind_eq_ok.1 h
  obtain ⟨⟨tag, c₃⟩, htag, h⟩ := bind_eq_ok.1 h
  simp only at h
  split at h
  · exact absurd h nofun
  · rename_i hne
    obtain ⟨kind, hkind, h⟩ := bind_eq_ok.1 h
    obtain ⟨value, hvalue, h⟩ := bind_eq_ok.1 h
    obtain rfl := Except.ok.inj h
    obtain ⟨h₁, hn⟩ := field_eq_ok hname
    obtain ⟨h₂, hs⟩ := field_eq_ok hspace
    obtain ⟨h₃, ht⟩ := field_eq_ok htag
    have hk := Kind.tag_of_ofTag hkind
    refine ⟨kind, c₃.remaining, ⟨?_, hn, hs, hk ▸ ht⟩, hne, hvalue⟩
    rw [afterHeader_eq_ok hheader, h₁, h₂, h₃, hk]

lemma decode_of_pieces {line name space tag payload : Text}
    (h : Fields (Text.dropFinal '\n' line) name space tag payload) :
    decode line = if name = [] then .error (.truncated .emptyName) else
      (Kind.ofTag tag).bind fun kind =>
        (Scalar.ofPayload kind payload).map fun value => ⟨name, space, value⟩ := by
  obtain ⟨hline, hn, hs, ht⟩ := h
  obtain ⟨c₀, hheader, h₀⟩ := afterHeader_of_line (name ++ Token.separator :: (space ++
    Token.separator :: (tag ++ Token.separator :: payload)))
  obtain ⟨c₁, hname, h₁⟩ := field_of_remaining .name h₀ hn
  obtain ⟨c₂, hspace, h₂⟩ := field_of_remaining .space h₁ hs
  obtain ⟨c₃, htag, h₃⟩ := field_of_remaining .kind h₂ ht
  simp only [decode, hline, hheader, hname, hspace, htag, h₃, bind, Except.bind]
  split
  · rfl
  · cases Kind.ofTag tag with
    | error fault => rfl
    | ok kind => cases Scalar.ofPayload kind payload <;> rfl

lemma decode_of_fields {line name space payload : Text} {kind : Kind}
    (h : Fields (Text.dropFinal '\n' line) name space kind.tag payload) (hne : name ≠ []) :
    decode line = (Scalar.ofPayload kind payload).map fun value => ⟨name, space, value⟩ := by
  rw [decode_of_pieces h, if_neg hne, Kind.ofTag_tag]
  rfl

lemma keyed_of_decode {line : Text} {b : Binding} (h : decode line = .ok b) : b.Keyed := by
  obtain ⟨_, _, ⟨_, hn, hs, _⟩, hne, _⟩ := fields_of_decode h
  exact ⟨hne, hn, hs⟩

lemma fields_token {b : Binding} (h : b.Keyed) :
    Fields b.token b.name b.space b.value.kind.tag b.value.payload := by
  refine ⟨?_, h.2, h.3, Kind.separator_not_mem_tag _⟩
  simp [token]

lemma dropFinal_encode (b : Binding) : Text.dropFinal '\n' b.encode = b.token := by
  simp [Text.dropFinal, encode]

lemma decode_encode_keyed {b : Binding} (h : b.Keyed) :
    ∃ d, decode b.encode = .ok d ∧ d.name = b.name ∧ d.space = b.space ∧
      Scalar.Identical b.value d.value := by
  obtain ⟨value, hvalue, hsame⟩ := Scalar.ofPayload_payload b.value
  have hfields : Fields (Text.dropFinal '\n' b.encode) _ _ _ _ :=
    b.dropFinal_encode.symm ▸ fields_token h
  have hdecode := decode_of_fields hfields h.1
  rw [hvalue] at hdecode
  exact ⟨_, hdecode, rfl, rfl, hsame⟩

/-- What can be done with a binding that is kept: making a new one, which takes its place, or giving
it another scalar. Reading a token with and without its line end is one thing. -/
inductive Step
  | make (name space : Text) (value : Scalar)
  | makeDefault (name : Text) (value : Scalar)
  | decode (line : Text)
  | setValue (value : Scalar)

/-- The binding that is kept after a step. A step that fails leaves it as it is. -/
def Step.apply (kept : Option Binding) : Step → Option Binding
  | .make name space value => (Binding.make name space value).toOption <|> kept
  | .makeDefault name value => (Binding.makeDefault name value).toOption <|> kept
  | .decode line => (Binding.decode line).toOption <|> kept
  | .setValue value => kept.map fun b => b.setValue value

def run (steps : List Step) : Option Binding := steps.foldl Step.apply none

def Step.Gives (b : Binding) : Step → Prop
  | .make name space value => Binding.make name space value = .ok b
  | .makeDefault name value => Binding.makeDefault name value = .ok b
  | .decode line => Binding.decode line = .ok b
  | .setValue _ => False

lemma eq_ok_or_kept {r : Except Fault Binding} {kept : Option Binding} {b : Binding}
    (h : (r.toOption <|> kept) = some b) : r = .ok b ∨ kept = some b := by
  cases r with
  | error f => exact Or.inr h
  | ok d => exact Or.inl (congrArg Except.ok (Option.some.inj h))

lemma step_cases {kept : Option Binding} {step : Step} {b : Binding}
    (h : step.apply kept = some b) :
    step.Gives b ∨ kept = some b ∨ ∃ d value, kept = some d ∧ b = d.setValue value := by
  cases step with
  | make name space value => exact (eq_ok_or_kept h).imp_right Or.inl
  | makeDefault name value => exact (eq_ok_or_kept h).imp_right Or.inl
  | decode line => exact (eq_ok_or_kept h).imp_right Or.inl
  | setValue value =>
    obtain ⟨d, hd, rfl⟩ := Option.map_eq_some_iff.1 h
    exact Or.inr (Or.inr ⟨d, value, hd, rfl⟩)

/-- What new bindings have and a new scalar does not change, every binding that is kept has. -/
lemma run_forall {P : Binding → Prop} (hset : ∀ b value, P b → P (b.setValue value))
    {steps : List Step} {b : Binding} (hgives : ∀ step ∈ steps, ∀ d, step.Gives d → P d)
    (h : run steps = some b) : P b := by
  induction steps using List.reverseRecOn generalizing b with
  | nil => exact absurd h nofun
  | append_singleton steps step ih =>
    have hkept : ∀ d, run steps = some d → P d := fun d hd =>
      ih (fun step hstep => hgives step (List.mem_append_left _ hstep)) hd
    rw [run, List.foldl_append] at h
    rcases step_cases h with hgiven | hsame | ⟨d, value, hd, rfl⟩
    · exact hgives step (by simp) b hgiven
    · exact hkept b hsame
    · exact hset d value (hkept d hd)

lemma keyed_run {steps : List Step} {b : Binding} (h : run steps = some b) : b.Keyed := by
  refine run_forall (fun b value hb => hb.setValue value) (fun step _ d hgives => ?_) h
  cases step with
  | make name space value => exact keyed_of_make hgives
  | makeDefault name value => exact keyed_of_make hgives
  | decode line => exact keyed_of_decode hgives
  | setValue value => exact hgives.elim

theorem decode_encode_run {steps : List Step} {b : Binding} (h : run steps = some b) :
    ∃ d, decode b.encode = .ok d ∧ d.name = b.name ∧ d.space = b.space ∧
      d.value.kind = b.value.kind ∧ Scalar.Identical b.value d.value := by
  obtain ⟨d, hd, hname, hspace, hvalue⟩ := decode_encode_keyed (keyed_run h)
  exact ⟨d, hd, hname, hspace, (Scalar.kind_eq_of_identical hvalue).symm, hvalue⟩

/-- A refused name, then a name with a line end in it, read from a token line, and a text that looks
like a token line and ends in line feeds. -/
theorem decode_encode_run_forged :
    run [.make "a#b".toList [] .null, .decode "LexTok#a\nb##dtNull#x".toList,
      .setValue (.text "LexTok#c#d#dtLong#1\n\r\n".toList)] =
      some ⟨"a\nb".toList, [], .text "LexTok#c#d#dtLong#1\n\r\n".toList⟩ ∧
    ∃ d, decode (encode ⟨"a\nb".toList, [], .text "LexTok#c#d#dtLong#1\n\r\n".toList⟩) = .ok d ∧
      d.name = "a\nb".toList ∧ d.space = [] ∧ d.value.kind = .string ∧
      Scalar.Identical (.text "LexTok#c#d#dtLong#1\n\r\n".toList) d.value := by
  have hfields : Fields (Text.dropFinal '\n' "LexTok#a\nb##dtNull#x".toList) "a\nb".toList []
      (Kind.tag .null) ['x'] := by
    refine ⟨?_, ?_, ?_, ?_⟩ <;> decide
  have hread := decode_of_fields hfields (by decide)
  have hrun : run [.make "a#b".toList [] .null, .decode "LexTok#a\nb##dtNull#x".toList,
      .setValue (.text "LexTok#c#d#dtLong#1\n\r\n".toList)] =
      some ⟨"a\nb".toList, [], .text "LexTok#c#d#dtLong#1\n\r\n".toList⟩ := by
    simp only [run, List.foldl_cons, List.foldl_nil, Step.apply, hread]
    rfl
  exact ⟨hrun, decode_encode_run hrun⟩

end Binding

end LexRules
