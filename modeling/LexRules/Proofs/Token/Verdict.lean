import LexRules.Proofs.Text.Split
import LexRules.Proofs.Token

/-! What becomes of any text that is read as a token line. The separators divide it into pieces, and
the first thing wrong with the pieces, from the left and then by kind, is what is reported. -/

namespace LexRules

namespace Text

lemma exists_first {sep : Char} {t : Text} (h : 0 < t.count sep) :
    ∃ before after, t = before ++ sep :: after ∧ sep ∉ before ∧ t.count sep = after.count sep + 1 := by
  obtain ⟨before, after, rfl, hbefore⟩ := List.eq_append_cons_of_mem (List.count_pos_iff.1 h)
  refine ⟨before, after, rfl, hbefore, ?_⟩
  simp [List.count_eq_zero_of_not_mem hbefore]

end Text

namespace Token

def lead : Text := header ++ [separator]

/-- The text before the separator at index `i`, back to the separator before it. -/
def piece (data : Text) (i : Nat) : Text := (Text.splitOn separator data).getD i []

def payloadPiece (data : Text) : Text :=
  Text.joinWith [separator] ((Text.splitOn separator data).drop 4)

def missing : Nat → TokenGap
  | 0 | 1 => .name
  | 2 => .space
  | _ => .kind

structure Complete (data : Text) : Prop where
  lead_prefix : lead <+: data
  separators : 4 ≤ data.count separator

end Token

namespace Scalar

inductive Reads : Kind → Text → Scalar → Prop
  | null (payload : Text) : Reads .null payload .null
  | string (payload : Text) : Reads .string payload (.text payload)
  | long {payload : Text} {n : Int64} : readInteger payload = .ok n → Reads .long payload (.integer n)
  | double {payload : Text} {x : Binary64} : readFloat payload = .ok x → Reads .double payload (.float x)

inductive Refuses : Kind → Text → NumberFlaw → Prop
  | long {payload : Text} {flaw : NumberFlaw} : readInteger payload = .error flaw →
      Refuses .long payload flaw
  | double {payload : Text} {flaw : NumberFlaw} : readFloat payload = .error flaw →
      Refuses .double payload flaw

variable {kind : Kind} {payload : Text}

lemma ofPayload_of_reads {value : Scalar} (h : Reads kind payload value) :
    ofPayload kind payload = .ok value := by
  cases h with
  | null => rfl
  | string => rfl
  | long hread => rw [ofPayload, hread]; rfl
  | double hread => rw [ofPayload, hread]; rfl

lemma ofPayload_of_refuses {flaw : NumberFlaw} (h : Refuses kind payload flaw) :
    ofPayload kind payload = .error (.badPayload kind.tag payload flaw) := by
  cases h with
  | long hread => rw [ofPayload, hread]; rfl
  | double hread => rw [ofPayload, hread]; rfl

lemma reads_or_refuses (kind : Kind) (payload : Text) :
    (∃ value, Reads kind payload value) ∨ ∃ flaw, Refuses kind payload flaw := by
  cases kind with
  | null => exact Or.inl ⟨_, .null payload⟩
  | string => exact Or.inl ⟨_, .string payload⟩
  | long =>
    cases hread : readInteger payload with
    | ok n => exact Or.inl ⟨_, .long hread⟩
    | error flaw => exact Or.inr ⟨flaw, .long hread⟩
  | double =>
    cases hread : readFloat payload with
    | ok x => exact Or.inl ⟨_, .double hread⟩
    | error flaw => exact Or.inr ⟨flaw, .double hread⟩

end Scalar

namespace Kind

lemma ofTag_of_ne {tag : Text} (h : ∀ kind, Kind.tag kind ≠ tag) : ofTag tag = .error (.unknownKind tag) := by
  have hfind : ofTag? tag = none := by
    apply List.find?_eq_none.2
    intro kind _ htag
    exact h kind (beq_iff_eq.1 htag)
  rw [ofTag, hfind]

end Kind

namespace Binding

/-- What reading a text comes to. Each case holds only where those before it do not. -/
inductive Verdict (data : Text) : Except Fault Binding → Prop
  | badHeader : ¬ Token.lead <+: data → Verdict data (.error (.badHeader (Token.piece data 0)))
  | truncated : Token.lead <+: data → data.count Token.separator < 4 →
      Verdict data (.error (.truncated (Token.missing (data.count Token.separator))))
  | emptyName : Token.Complete data → Token.piece data 1 = [] →
      Verdict data (.error (.truncated .emptyName))
  | unknownKind : Token.Complete data → Token.piece data 1 ≠ [] →
      (∀ kind, Kind.tag kind ≠ Token.piece data 3) →
      Verdict data (.error (.unknownKind (Token.piece data 3)))
  | badPayload {kind : Kind} {flaw : NumberFlaw} : Token.Complete data → Token.piece data 1 ≠ [] →
      kind.tag = Token.piece data 3 → Scalar.Refuses kind (Token.payloadPiece data) flaw →
      Verdict data (.error (.badPayload (Token.piece data 3) (Token.payloadPiece data) flaw))
  | binding {kind : Kind} {value : Scalar} : Token.Complete data → Token.piece data 1 ≠ [] →
      kind.tag = Token.piece data 3 → Scalar.Reads kind (Token.payloadPiece data) value →
      Verdict data (.ok ⟨Token.piece data 1, Token.piece data 2, value⟩)

variable {line data name space tag payload : Text}

lemma Fields.splitOn (h : Fields data name space tag payload) :
    Text.splitOn Token.separator data =
      Token.header :: name :: space :: tag :: Text.splitOn Token.separator payload := by
  obtain ⟨rfl, hname, hspace, htag⟩ := h
  have hheader : Token.separator ∉ Token.header := by decide
  simp [Text.splitOn_append, Text.splitOn_of_not_mem, hheader, hname, hspace, htag]

lemma exists_fields (h : Token.Complete data) :
    ∃ name space tag payload, Fields data name space tag payload := by
  obtain ⟨⟨rest, rfl⟩, hcount⟩ := h
  have hlead : Token.lead.count Token.separator = 1 := by decide
  rw [List.count_append, hlead] at hcount
  obtain ⟨name, rest, rfl, hname, hnext⟩ :=
    Text.exists_first (show 0 < rest.count Token.separator by omega)
  obtain ⟨space, rest, rfl, hspace, hlast⟩ :=
    Text.exists_first (show 0 < rest.count Token.separator by omega)
  obtain ⟨tag, payload, rfl, htag, -⟩ :=
    Text.exists_first (show 0 < rest.count Token.separator by omega)
  exact ⟨name, space, tag, payload, by simp [Token.lead], hname, hspace, htag⟩

lemma pieces_of_complete (h : Token.Complete data) : Fields data (Token.piece data 1)
    (Token.piece data 2) (Token.piece data 3) (Token.payloadPiece data) := by
  obtain ⟨name, space, tag, payload, hfields⟩ := exists_fields h
  have hsplit := hfields.splitOn
  simpa [Token.piece, Token.payloadPiece, hsplit, Text.joinWith_splitOn] using hfields

lemma field_eq_error (gap : TokenGap) {c : Cursor} (h : Token.separator ∉ c.remaining) :
    field gap c = .error (.truncated gap) := by
  rw [field, Cursor.takeField_eq_none h]

lemma afterHeader_eq_error (h : ¬ Token.lead <+: data) :
    afterHeader data = .error (.badHeader (Token.piece data 0)) := by
  by_cases hmem : Token.separator ∈ data
  · obtain ⟨found, rest, rfl, hfound⟩ := List.eq_append_cons_of_mem hmem
    obtain ⟨next, hnext, -⟩ :=
      Cursor.takeField_remaining (c := Cursor.start (found ++ Token.separator :: rest)) rfl hfound
    have hne : found ≠ Token.header := by
      rintro rfl
      exact h ⟨rest, by simp [Token.lead]⟩
    simp [afterHeader, hnext, hne, Token.piece, Text.splitOn_append, Text.splitOn_of_not_mem hfound]
  · rw [afterHeader, Cursor.takeField_eq_none (c := Cursor.start data) hmem]
    simp [Token.piece, Text.splitOn_of_not_mem hmem]

lemma decode_of_truncated (hlead : Token.lead <+: Text.dropFinal '\n' line)
    (hcount : (Text.dropFinal '\n' line).count Token.separator < 4) :
    decode line = .error (.truncated
      (Token.missing ((Text.dropFinal '\n' line).count Token.separator))) := by
  obtain ⟨rest, hrest⟩ := hlead
  obtain ⟨c₀, hheader, h₀⟩ := afterHeader_of_line rest
  have hdata : Text.dropFinal '\n' line = Token.header ++ Token.separator :: rest := by
    rw [← hrest, Token.lead, List.append_assoc]
    rfl
  have hlead : Token.lead.count Token.separator = 1 := by decide
  rw [← hrest, List.count_append, hlead] at hcount ⊢
  simp only [decode, hdata, hheader, bind, Except.bind]
  -- The first field without a separator behind it is the one that is missing.
  rcases Nat.eq_zero_or_pos (rest.count Token.separator) with hzero | hpos
  · rw [field_eq_error .name (h₀ ▸ List.count_eq_zero.1 hzero), hzero]
    rfl
  obtain ⟨name, rest, rfl, hname, hnext⟩ := Text.exists_first hpos
  obtain ⟨c₁, hc₁, h₁⟩ := field_of_remaining .name h₀ hname
  rw [hnext] at hcount ⊢
  simp only [hc₁]
  rcases Nat.eq_zero_or_pos (rest.count Token.separator) with hzero | hpos
  · rw [field_eq_error .space (h₁ ▸ List.count_eq_zero.1 hzero), hzero]
    rfl
  obtain ⟨space, rest, rfl, hspace, hlast⟩ := Text.exists_first hpos
  obtain ⟨c₂, hc₂, h₂⟩ := field_of_remaining .space h₁ hspace
  have hzero : rest.count Token.separator = 0 := by omega
  rw [hlast, hzero]
  simp only [hc₂]
  rw [field_eq_error .kind (h₂ ▸ List.count_eq_zero.1 hzero)]
  rfl

lemma decode_of_verdict {r : Except Fault Binding} (h : Verdict (Text.dropFinal '\n' line) r) :
    decode line = r := by
  cases h with
  | badHeader hlead =>
    simp only [decode, afterHeader_eq_error hlead]
    rfl
  | truncated hlead hcount => exact decode_of_truncated hlead hcount
  | emptyName hcomplete hname => rw [decode_of_pieces (pieces_of_complete hcomplete), if_pos hname]
  | unknownKind hcomplete hname htag =>
    rw [decode_of_pieces (pieces_of_complete hcomplete), if_neg hname, Kind.ofTag_of_ne htag]
    rfl
  | badPayload hcomplete hname htag hrefuses =>
    rw [decode_of_pieces (pieces_of_complete hcomplete), if_neg hname, ← htag, Kind.ofTag_tag]
    simp only [Except.bind, Scalar.ofPayload_of_refuses hrefuses]
    rfl
  | binding hcomplete hname htag hreads =>
    rw [decode_of_pieces (pieces_of_complete hcomplete), if_neg hname, ← htag, Kind.ofTag_tag]
    simp only [Except.bind, Scalar.ofPayload_of_reads hreads]
    rfl

lemma exists_verdict (data : Text) : ∃ r, Verdict data r := by
  by_cases hlead : Token.lead <+: data
  swap
  · exact ⟨_, .badHeader hlead⟩
  rcases Nat.lt_or_ge (data.count Token.separator) 4 with hcount | hcount
  · exact ⟨_, .truncated hlead hcount⟩
  have hcomplete : Token.Complete data := ⟨hlead, hcount⟩
  by_cases hname : Token.piece data 1 = []
  · exact ⟨_, .emptyName hcomplete hname⟩
  by_cases htag : ∃ kind, Kind.tag kind = Token.piece data 3
  · obtain ⟨kind, htag⟩ := htag
    rcases Scalar.reads_or_refuses kind (Token.payloadPiece data) with ⟨value, hreads⟩ | ⟨flaw, hrefuses⟩
    · exact ⟨_, .binding hcomplete hname htag hreads⟩
    · exact ⟨_, .badPayload hcomplete hname htag hrefuses⟩
  · exact ⟨_, .unknownKind hcomplete hname (not_exists.1 htag)⟩

theorem decode_eq_iff_verdict (line : Text) (r : Except Fault Binding) :
    decode line = r ↔ Verdict (Text.dropFinal '\n' line) r := by
  constructor
  · rintro rfl
    obtain ⟨r, hr⟩ := exists_verdict (Text.dropFinal '\n' line)
    rwa [decode_of_verdict hr]
  · exact decode_of_verdict

end Binding

end LexRules
