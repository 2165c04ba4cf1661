import LexRules.Proofs.Text.Utf8
import LexRules.Proofs.Token
import LexRules.Token.Stream

/-! Token lines one after another. Each binding opens a line of its own, and that line holds its
payload as far as the first line feed in it. -/

namespace LexRules

namespace Text

def Unbroken (t : Text) : Prop := ∀ c ∈ t, c ≠ '\n' ∧ c ≠ '\r'

variable {s t : Text}

@[simp] lemma unbroken_nil : Unbroken [] := List.forall_mem_nil _

@[simp] lemma unbroken_append : Unbroken (s ++ t) ↔ Unbroken s ∧ Unbroken t := List.forall_mem_append

@[simp] lemma unbroken_cons {c : Char} : Unbroken (c :: t) ↔ (c ≠ '\n' ∧ c ≠ '\r') ∧ Unbroken t :=
  List.forall_mem_cons

lemma unbroken_iff : Unbroken t ↔ '\n' ∉ t ∧ '\r' ∉ t := by
  simp only [Unbroken, ← List.forall_mem_ne', ← forall_and]

lemma Unbroken.newline_not_mem (h : Unbroken t) : '\n' ∉ t := fun hmem => (h _ hmem).1 rfl

lemma Unbroken.return_not_mem (h : Unbroken t) : '\r' ∉ t := fun hmem => (h _ hmem).2 rfl

/-- A text as far as its first line feed, without the carriage return there. -/
def firstLine (t : Text) : Text := dropFinal '\r' (t.takeWhile fun c => c ≠ '\n')

lemma takeWhile_of_newline_not_mem (h : '\n' ∉ t) : (t.takeWhile fun c => c ≠ '\n') = t :=
  List.takeWhile_eq_self_iff.2 fun _ hc => decide_eq_true fun heq => h (heq ▸ hc)

lemma newline_not_mem_takeWhile (t : Text) : '\n' ∉ t.takeWhile fun c => c ≠ '\n' :=
  fun hmem => by simpa using List.mem_takeWhile_imp hmem

lemma Unbroken.firstLine_eq (h : Unbroken t) : firstLine t = t := by
  rw [firstLine, takeWhile_of_newline_not_mem h.newline_not_mem, dropFinal_of_not_mem h.return_not_mem]

lemma dropFinal_eq_self_iff {α : Type} [DecidableEq α] {a : α} {l : List α} :
    dropFinal a l = l ↔ l.getLast? ≠ some a := by
  rw [dropFinal]
  split
  · rename_i hlast
    have hne : l ≠ [] := by
      rintro rfl
      cases hlast
    refine iff_of_false (fun heq => ?_) (not_not.2 hlast)
    have hlength := congrArg List.length heq
    rw [List.length_dropLast] at hlength
    have := List.length_pos_iff.2 hne
    omega
  · rename_i hlast
    exact iff_of_true rfl hlast

lemma length_dropFinal_le {α : Type} [DecidableEq α] (a : α) (l : List α) :
    (dropFinal a l).length ≤ l.length := by
  rw [dropFinal]
  split
  · rw [List.length_dropLast]
    exact Nat.sub_le _ _
  · exact Nat.le_refl _

lemma firstLine_eq_self_iff : firstLine t = t ↔ '\n' ∉ t ∧ t.getLast? ≠ some '\r' := by
  constructor
  · intro h
    have htake : (t.takeWhile fun c => c ≠ '\n') = t := by
      refine (List.takeWhile_prefix _).eq_of_length_le ?_
      have hle := length_dropFinal_le '\r' (t.takeWhile fun c => c ≠ '\n')
      rwa [← firstLine, h] at hle
    rw [firstLine, htake] at h
    exact ⟨htake ▸ newline_not_mem_takeWhile t, dropFinal_eq_self_iff.1 h⟩
  · rintro ⟨hnewline, hreturn⟩
    rw [firstLine, takeWhile_of_newline_not_mem hnewline, dropFinal_eq_self_iff.2 hreturn]

lemma newline_not_mem_firstLine (t : Text) : '\n' ∉ firstLine t := by
  rw [firstLine, dropFinal]
  split
  · exact fun hmem => newline_not_mem_takeWhile t (List.mem_of_mem_dropLast hmem)
  · exact newline_not_mem_takeWhile t

lemma pieces_takeWhile (h : '\n' ∉ s) (t rest : Text) :
    ∃ more, pieces '\n' (s ++ t ++ '\n' :: rest) =
        (s ++ t.takeWhile fun c => c ≠ '\n', true) :: more ∧
      ('\n' ∉ t → more = pieces '\n' rest) := by
  have hline : '\n' ∉ s ++ t.takeWhile fun c => c ≠ '\n' :=
    fun hmem => (List.mem_append.1 hmem).elim h (newline_not_mem_takeWhile t)
  by_cases ht : '\n' ∈ t
  · obtain ⟨q, behind, rfl, hq⟩ := List.eq_append_cons_of_mem ht
    have htake : ((q ++ '\n' :: behind).takeWhile fun c => c ≠ '\n') = q := by
      rw [List.takeWhile_append, takeWhile_of_newline_not_mem hq, if_pos rfl,
        List.takeWhile_cons_of_neg (by decide), List.append_nil]
    rw [htake] at hline ⊢
    refine ⟨pieces '\n' (behind ++ '\n' :: rest), ?_, absurd ht⟩
    rw [← pieces_append hline]
    simp
  · rw [takeWhile_of_newline_not_mem ht] at hline ⊢
    exact ⟨_, pieces_append hline rest, fun _ => rfl⟩

lemma unbroken_digits (h : ∀ c ∈ t, isDigit c = true) : Unbroken t := fun c hc =>
  forall_digit (p := fun c => c ≠ '\n' ∧ c ≠ '\r') (by decide) c (h c hc)

lemma unbroken_ofNat (n : Nat) : Unbroken (ofNat n) := unbroken_digits (all_isDigit_ofNat n)

lemma unbroken_ofInt (n : Int) : Unbroken (ofInt n) := by
  cases n with
  | ofNat n => exact unbroken_ofNat n
  | negSucc n => exact unbroken_cons.2 ⟨by decide, unbroken_ofNat (n + 1)⟩

end Text

namespace Binary64

lemma unbroken_positional {digits : Text} (h : Text.Unbroken digits) (first : Int) :
    Text.Unbroken (positional digits first) := by
  have hzeros (n : Nat) : Text.Unbroken (List.replicate n '0') :=
    Text.unbroken_digits (all_isDigit_zeros n)
  rw [positional]
  split
  · simp [h, hzeros]
  · have hpadded := Text.unbroken_append.2 ⟨h, hzeros (first.toNat + 1 + 1 - digits.length)⟩
    refine Text.unbroken_append.2 ⟨fun c hc => hpadded c (List.mem_of_mem_take hc), ?_⟩
    exact Text.unbroken_cons.2 ⟨by decide, fun c hc => hpadded c (List.mem_of_mem_drop hc)⟩

lemma unbroken_scientific (layout : Layout) {digits : Text} (h : Text.Unbroken digits) (first : Int) :
    Text.Unbroken (scientific layout digits first) := by
  have hhead : Text.Unbroken (digits.take 1) := fun c hc => h c (List.mem_of_mem_take hc)
  have hpoint : Text.Unbroken (if digits.length ≤ 1 then [] else '.' :: digits.drop 1) := by
    split
    · exact Text.unbroken_nil
    · exact Text.unbroken_cons.2 ⟨by decide, fun c hc => h c (List.mem_of_mem_drop hc)⟩
  have hsign : Text.Unbroken (if layout.plusSign && decide (0 ≤ first) then ['+'] else []) := by
    split <;> simp
  simp only [scientific, Text.unbroken_append, Text.unbroken_cons]
  exact ⟨⟨⟨hhead, hpoint⟩, by decide, hsign⟩, Text.unbroken_ofInt _⟩

lemma unbroken_finiteText (layout : Layout) (x : Binary64) : Text.Unbroken (layout.finiteText x) := by
  have hsign : Text.Unbroken (if x.isNegative then ['-'] else []) := by split <;> simp
  refine Text.unbroken_append.2 ⟨hsign, ?_⟩
  simp only [Layout.magnitudeText]
  split
  · exact unbroken_positional (Text.unbroken_ofNat _) _
  · exact unbroken_scientific layout (Text.unbroken_ofNat _) _

lemma unbroken_specialName (x : Binary64) : Text.Unbroken x.specialName := by
  rw [specialName]
  split
  · simp
  · split <;> simp

end Binary64

lemma Kind.unbroken_tag (k : Kind) : Text.Unbroken k.tag := by
  rw [Text.unbroken_iff]
  cases k <;> decide

namespace Scalar

/-- A scalar whose payload stays whole in a line: it has no line feed, and no carriage return where
its line ends. -/
def OneLine : Scalar → Prop
  | .text t => '\n' ∉ t ∧ t.getLast? ≠ some '\r'
  | _ => True

lemma unbroken_payload {s : Scalar} (h : s.kind ≠ .string) : Text.Unbroken s.payload := by
  cases s with
  | null => exact Text.unbroken_nil
  | integer n => exact Text.unbroken_ofInt _
  | float x =>
    rw [payload, floatPayload]
    split
    · exact Binary64.unbroken_finiteText _ x
    · exact Binary64.unbroken_specialName x
  | text t => exact absurd rfl h

lemma OneLine.newline_not_mem {s : Scalar} (h : s.OneLine) : '\n' ∉ s.payload := by
  cases s with
  | text t => exact h.1
  | _ => exact (unbroken_payload Kind.noConfusion).newline_not_mem

lemma ofPayload_firstLine (s : Scalar) :
    ∃ t, ofPayload s.kind (Text.firstLine s.payload) = .ok t ∧ (Identical s t ↔ s.OneLine) := by
  by_cases hkind : s.kind = .string
  · cases s with
    | text t => exact ⟨.text (Text.firstLine t), rfl, eq_comm.trans Text.firstLine_eq_self_iff⟩
    | _ => exact absurd hkind nofun
  · obtain ⟨t, ht, hsame⟩ := ofPayload_payload s
    rw [(unbroken_payload hkind).firstLine_eq]
    refine ⟨t, ht, iff_of_true hsame ?_⟩
    cases s with
    | text t => exact absurd rfl hkind
    | _ => exact trivial

end Scalar

namespace Binding

/-- The same binding exactly, where one NaN stands for all. -/
def Identical (b d : Binding) : Prop :=
  b.name = d.name ∧ b.space = d.space ∧ Scalar.Identical b.value d.value

structure Lined (b : Binding) : Prop extends Keyed b where
  name_unbroken : Text.Unbroken b.name
  space_unbroken : Text.Unbroken b.space

/-- A binding that came about by making it, with a scalar set later or not. -/
inductive Made : Binding → Prop
  | make {name space : Text} {value : Scalar} {b : Binding} :
      Binding.make name space value = .ok b → Made b
  | makeDefault {name : Text} {value : Scalar} {b : Binding} :
      Binding.makeDefault name value = .ok b → Made b
  | setValue {b : Binding} (value : Scalar) : Made b → Made (b.setValue value)

lemma unbroken_of_checkPart {part : KeyPart} {t : Text} (h : checkPart part t = .ok ()) :
    Text.Unbroken t := by
  intro c hc
  have hreserved : Token.isReserved c = false := by
    by_contra hreserved
    have hany : t.any Token.isReserved = true :=
      List.any_eq_true.2 ⟨c, hc, Bool.eq_true_of_not_eq_false hreserved⟩
    simp [checkPart, hany] at h
  simp only [Token.isReserved, Bool.or_eq_false_iff, beq_eq_false_iff_ne] at hreserved
  exact ⟨hreserved.1.2, hreserved.2⟩

lemma lined_of_make {name space : Text} {value : Scalar} {b : Binding}
    (h : Binding.make name space value = .ok b) : b.Lined := by
  have hkeyed := keyed_of_make h
  simp only [Binding.make] at h
  split at h
  · cases h
  · obtain ⟨_, hn, h⟩ := bind_eq_ok.1 h
    obtain ⟨_, hs, h⟩ := bind_eq_ok.1 h
    obtain rfl := Except.ok.inj h
    exact ⟨hkeyed, unbroken_of_checkPart hn, unbroken_of_checkPart hs⟩

lemma Made.lined {b : Binding} (h : b.Made) : b.Lined := by
  induction h with
  | make h => exact lined_of_make h
  | makeDefault h => exact lined_of_make h
  | setValue value _ ih => exact ⟨ih.toKeyed.setValue value, ih.name_unbroken, ih.space_unbroken⟩

def stem (b : Binding) : Text :=
  Token.header ++ Token.separator :: b.name ++ Token.separator :: b.space ++
    Token.separator :: b.value.kind.tag ++ [Token.separator]

lemma encode_eq (b : Binding) : b.encode = b.stem ++ b.value.payload ++ ['\n'] := by
  simp [encode, token, stem]

variable {b : Binding}

lemma Lined.unbroken_stem (h : b.Lined) : Text.Unbroken b.stem := by
  simp [stem, Token.header, Token.separator, h.name_unbroken, h.space_unbroken, Kind.unbroken_tag]

lemma dropFinal_stem {c : Char} (hc : c ≠ Token.separator) (b : Binding) (t : Text) :
    Text.dropFinal c (b.stem ++ t) = b.stem ++ Text.dropFinal c t := by
  by_cases ht : t = []
  · have hlast : b.stem.getLast? ≠ some c := by
      rw [stem, List.getLast?_concat]
      exact fun h => hc (Option.some.inj h).symm
    rw [ht, List.append_nil, Text.dropFinal_eq_self_iff.2 hlast]
    exact (List.append_nil _).symm
  · exact Text.dropFinal_append c b.stem ht

lemma decode_stem (h : b.Lined) {payload : Text} (hpayload : '\n' ∉ payload) :
    decode (b.stem ++ payload) =
      (Scalar.ofPayload b.value.kind payload).map fun value => ⟨b.name, b.space, value⟩ := by
  refine decode_of_fields ⟨?_, h.separator_not_mem_name, h.separator_not_mem_space,
    Kind.separator_not_mem_tag _⟩ h.name_ne_nil
  have hline : '\n' ∉ b.stem ++ payload :=
    fun hmem => (List.mem_append.1 hmem).elim h.unbroken_stem.newline_not_mem hpayload
  rw [Text.dropFinal_of_not_mem hline]
  simp [stem]

lemma outcome_stem (b : Binding) (payload : Text) :
    Token.outcome? (some (b.stem ++ payload)) =
      some ((decode (b.stem ++ payload)).mapError .fault) := by
  rw [Token.outcome?, if_neg]
  rw [stem, Token.header]
  exact Bool.noConfusion

lemma exists_outcome_line (h : b.Lined) :
    ∃ d, Token.outcome? (some (Text.dropFinal '\r'
        (b.stem ++ b.value.payload.takeWhile fun c => c ≠ '\n'))) = some (.ok d) ∧
      (Identical b d ↔ b.value.OneLine) := by
  obtain ⟨value, hvalue, hsame⟩ := Scalar.ofPayload_firstLine b.value
  refine ⟨⟨b.name, b.space, value⟩, ?_, ?_⟩
  · rw [dropFinal_stem (by decide), ← Text.firstLine, outcome_stem b,
      decode_stem h (Text.newline_not_mem_firstLine _), hvalue]
    rfl
  · rw [← hsame]
    exact ⟨fun h => h.2.2, fun h => ⟨rfl, rfl, h⟩⟩

end Binding

namespace Token

def Restores (l : List Binding) (results : List (Nat × Outcome)) : Prop :=
  List.Forall₂ Binding.Identical l (bindings results) ∧ failures results = []

lemma restores_cons {b d : Binding} {l : List Binding} {number : Nat}
    {results : List (Nat × Outcome)} :
    Restores (b :: l) ((number, .ok d) :: results) ↔ Binding.Identical b d ∧ Restores l results := by
  have hbindings : bindings ((number, .ok d) :: results) = d :: bindings results := rfl
  have hfailures : failures ((number, .ok d) :: results) = failures results := rfl
  rw [Restores, Restores, hbindings, hfailures, List.forall₂_cons, and_assoc]

lemma streamLines_of_decode {bytes : Text.Bytes} {t : Text} (h : Text.decodeUtf8 bytes = some t) :
    streamLines bytes = (Text.pieces '\n' t).map fun p => some (Text.dropFinal '\r' p.1) := by
  have hpieces := Text.pieces_decode h
  rw [← List.forall₂_eq_eq_eq, List.forall₂_map_left_iff, List.forall₂_map_right_iff] at hpieces
  rw [streamLines, ← List.forall₂_eq_eq_eq, List.forall₂_map_left_iff, List.forall₂_map_right_iff]
  exact hpieces.imp fun _ _ heq => Text.decodeUtf8_dropFinal (Prod.ext_iff.1 heq).1

lemma restores_iff (l : List Binding) (h : ∀ b ∈ l, b.Lined) (number : Nat) :
    Restores l (outcomes number ((Text.pieces '\n' (l.flatMap Binding.encode)).map fun p =>
      some (Text.dropFinal '\r' p.1))) ↔ ∀ b ∈ l, b.value.OneLine := by
  induction l generalizing number with
  | nil => exact iff_of_true ⟨.nil, rfl⟩ (List.forall_mem_nil _)
  | cons b l ih =>
    obtain ⟨hb, hl⟩ := List.forall_mem_cons.1 h
    obtain ⟨more, hpieces, hmore⟩ := Text.pieces_takeWhile hb.unbroken_stem.newline_not_mem
      b.value.payload (l.flatMap Binding.encode)
    obtain ⟨d, hd, hsame⟩ := Binding.exists_outcome_line hb
    rw [List.flatMap_cons, Binding.encode_eq, List.append_assoc, List.singleton_append, hpieces,
      List.map_cons, outcomes, hd, List.forall_mem_cons]
    refine restores_cons.trans ?_
    rw [hsame]
    -- only a scalar that stays whole in its line leaves the lines of the others as they are
    refine and_congr_right fun hline => ?_
    rw [hmore hline.newline_not_mem]
    exact ih hl (number + 1)

end Token

end LexRules
