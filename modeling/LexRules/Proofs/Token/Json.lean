import LexRules.Proofs.Text.Quoted
import LexRules.Proofs.Token

/-! Bindings told from their JSON. A float that is not finite is written as a string there, which no
number is, and its type keeps it apart from a text with the same letters. -/

namespace LexRules

def Kind.typeName : Kind → Text
  | .null => "null".toList
  | .long => "integer".toList
  | .double => "float".toList
  | .string => "text".toList

lemma Kind.typeName_injective : Function.Injective typeName := by
  intro k l h
  cases k <;> cases l <;> first | rfl | exact absurd h (by decide)

namespace Scalar

def jsonContent : Scalar → List (String × Text)
  | .null => []
  | .integer n => [("value", Text.ofInt n.toInt)]
  | .float x => [("value", floatJson x)]
  | .text t => [("value", Text.quoted t)]

lemma json_eq (s : Scalar) :
    s.json = Text.jsonObject (("type", Text.quoted s.kind.typeName) :: s.jsonContent) := by
  cases s <;> rfl

lemma ofInt_inj {m n : Int64} (h : Text.ofInt m.toInt = Text.ofInt n.toInt) : m = n := by
  have hread := congrArg readInteger h
  rw [readInteger_ofInt, readInteger_ofInt] at hread
  exact Except.ok.inj hread

lemma floatJson_of_isNaN {x : Binary64} (hx : x.isNaN = true) : floatJson x = Text.quoted "NaN".toList := by
  rw [floatJson, if_neg (Binary64.not_isFinite_of_isNaN hx), Binary64.specialName, if_pos hx]

lemma floatJson_inj {x y : Binary64} (h : floatJson x = floatJson y) :
    x = y ∨ x.isNaN = true ∧ y.isNaN = true := by
  rw [floatJson, floatJson] at h
  cases hx : x.isFinite with
  | true =>
    cases hy : y.isFinite with
    | true =>
      rw [hx, hy, if_pos rfl, if_pos rfl] at h
      have hread := Binary64.ofLiteral_finiteText jsonLayout hx
      rw [h, Binary64.ofLiteral_finiteText jsonLayout hy] at hread
      exact Or.inl (Option.some.inj hread).symm
    | false =>
      rw [hx, hy, if_pos rfl, if_neg Bool.false_ne_true] at h
      exact absurd (congrArg List.head? h) (Binary64.quote_not_head_finiteText jsonLayout x)
  | false =>
    cases hy : y.isFinite with
    | true =>
      rw [hx, hy, if_pos rfl, if_neg Bool.false_ne_true] at h
      exact absurd (congrArg List.head? h).symm (Binary64.quote_not_head_finiteText jsonLayout y)
    | false =>
      rw [hx, hy, if_neg Bool.false_ne_true, if_neg Bool.false_ne_true] at h
      exact Binary64.specialName_inj hx hy (Text.quoted_inj h)

variable {s t : Scalar}

lemma json_congr (h : Identical s t) : s.json = t.json := by
  cases s <;> cases t <;> try exact h.elim
  case null.null => rfl
  case integer.integer => exact congrArg (json ∘ integer) h
  case float.float x y =>
    rcases h with rfl | ⟨hx, hy⟩
    · rfl
    · rw [json, json, floatJson_of_isNaN hx, floatJson_of_isNaN hy]
  case text.text => exact congrArg (json ∘ text) h

lemma identical_of_json (h : s.json = t.json) : Identical s t := by
  rw [json_eq, json_eq] at h
  obtain ⟨hname, hcontent⟩ := Text.jsonObject_quoted_inj h
  have hkind : s.kind = t.kind := Kind.typeName_injective hname
  cases s <;> cases t <;> try exact Kind.noConfusion hkind
  case null.null => trivial
  case integer.integer => exact ofInt_inj (Text.jsonTail_last_inj hcontent)
  case float.float => exact floatJson_inj (Text.jsonTail_last_inj hcontent)
  case text.text => exact Text.quoted_inj (Text.jsonTail_last_inj hcontent)

lemma json_eq_iff : s.json = t.json ↔ Identical s t := ⟨identical_of_json, json_congr⟩

end Scalar

namespace Binding

theorem json_tells_bindings (b d : Binding) :
    (b.json = d.json ↔ b.name = d.name ∧ b.space = d.space ∧ b.value.kind = d.value.kind ∧
      b.value.Identical d.value) ∧
    ∀ t, (∀ n, (Scalar.text t).json ≠ (Scalar.integer n).json) ∧
      ∀ x, (Scalar.text t).json ≠ (Scalar.float x).json := by
  refine ⟨⟨fun h => ?_, ?_⟩, fun t => ⟨fun n h => ?_, fun x h => ?_⟩⟩
  · obtain ⟨hname, hbehind⟩ := Text.jsonObject_quoted_inj h
    obtain ⟨hspace, hbehind⟩ := Text.jsonTail_quoted_inj hbehind
    have hvalue := Scalar.json_eq_iff.1 (Text.jsonTail_last_inj hbehind)
    exact ⟨hname, hspace, Scalar.kind_eq_of_identical hvalue, hvalue⟩
  · rintro ⟨hname, hspace, -, hvalue⟩
    rw [json, json, hname, hspace, Scalar.json_eq_iff.2 hvalue]
  · exact Scalar.json_eq_iff.1 h
  · exact Scalar.json_eq_iff.1 h

end Binding

end LexRules
