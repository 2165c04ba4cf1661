import LexRules.Proofs.Text.Split
import LexRules.Text.Quoted
import Mathlib.Tactic.SplitIfs

/-! Compact JSON read back. A string literal says by itself where it ends, so the strings in an object
can be told from its text, whatever quotes, backslashes or pieces of JSON they hold. -/

namespace LexRules.Text

def unescaped? : Char → Option Char
  | '"' => some '"'
  | '\\' => some '\\'
  | 'b' => some '\x08'
  | 't' => some '\t'
  | 'n' => some '\n'
  | 'f' => some '\x0c'
  | 'r' => some '\r'
  | _ => none

def hexValue? (digits : Text) : Option Nat :=
  digits.foldlM (fun n c => (hexDigit? c).map (16 * n + ·)) 0

def readQuoted? : Text → Option (Text × Text)
  | [] => none
  | '"' :: rest => some ([], rest)
  | '\\' :: 'u' :: a :: b :: c :: d :: rest =>
    (hexValue? [a, b, c, d]).bind fun n => (readQuoted? rest).map fun p => (Char.ofNat n :: p.1, p.2)
  | '\\' :: letter :: rest =>
    (unescaped? letter).bind fun c => (readQuoted? rest).map fun p => (c :: p.1, p.2)
  | c :: rest => (readQuoted? rest).map fun p => (c :: p.1, p.2)

/-- How a character stands in a string literal. -/
inductive Escape : Char → Text → Prop
  | letter {c letter : Char} : unescaped? letter = some c → Escape c ['\\', letter]
  | code {c a b : Char} : hexValue? ['0', '0', a, b] = some c.toNat → Escape c ['\\', 'u', '0', '0', a, b]
  | plain {c : Char} : c ≠ '"' → c ≠ '\\' → Escape c [c]

lemma hexValue_control : ∀ n < 0x20, hexValue? ['0', '0', hexChar (n / 16), hexChar (n % 16)] = some n := by
  decide

lemma escape_escapeChar (c : Char) : Escape c (escapeChar c) := by
  rw [escapeChar]
  split_ifs with hquote hslash hback htab hline hfeed hreturn hcontrol
  · exact .letter (congrArg some hquote.symm)
  · exact .letter (congrArg some hslash.symm)
  · exact .letter (congrArg some hback.symm)
  · exact .letter (congrArg some htab.symm)
  · exact .letter (congrArg some hline.symm)
  · exact .letter (congrArg some hfeed.symm)
  · exact .letter (congrArg some hreturn.symm)
  · exact .code (hexValue_control c.toNat hcontrol)
  · exact .plain hquote hslash

lemma readQuoted_escape {c : Char} {unit : Text} (h : Escape c unit) (rest : Text) :
    readQuoted? (unit ++ rest) = (readQuoted? rest).map fun p => (c :: p.1, p.2) := by
  cases h with
  | @letter letter hletter =>
    -- behind a backslash, `u` stands before digits
    have hcode : letter ≠ 'u' := by
      rintro rfl
      exact absurd hletter nofun
    simp [readQuoted?, hletter, hcode]
  | code hcode => simp [readQuoted?, hcode]
  | plain hquote hslash => simp [readQuoted?, hslash]

lemma readQuoted_quoted (t rest : Text) :
    readQuoted? (t.flatMap escapeChar ++ '"' :: rest) = some (t, rest) := by
  induction t with
  | nil => rfl
  | cons c t ih =>
    rw [List.flatMap_cons, List.append_assoc, readQuoted_escape (escape_escapeChar c), ih]
    rfl

lemma quoted_append_inj {s t a b : Text} (h : quoted s ++ a = quoted t ++ b) : s = t ∧ a = b := by
  have hbody : s.flatMap escapeChar ++ '"' :: a = t.flatMap escapeChar ++ '"' :: b := by
    simpa [quoted] using h
  have hread := congrArg readQuoted? hbody
  rw [readQuoted_quoted, readQuoted_quoted] at hread
  exact Prod.mk.inj (Option.some.inj hread)

lemma quoted_inj {s t : Text} (h : quoted s = quoted t) : s = t :=
  (quoted_append_inj (congrArg (· ++ []) h)).1

def jsonTail (fields : List (String × Text)) : Text :=
  fields.flatMap (fun f => ',' :: jsonField f) ++ ['\x7d']

lemma jsonTail_cons (f : String × Text) (fields : List (String × Text)) :
    jsonTail (f :: fields) = ',' :: (jsonField f ++ jsonTail fields) := by
  simp [jsonTail]

lemma jsonObject_cons (f : String × Text) (fields : List (String × Text)) :
    jsonObject (f :: fields) = '\x7b' :: (jsonField f ++ jsonTail fields) := by
  have hjoin : joinWith [','] ((f :: fields).map jsonField) ++ ['\x7d'] = jsonField f ++ jsonTail fields := by
    induction fields generalizing f with
    | nil => rfl
    | cons g fields ih =>
      rw [jsonTail_cons, ← ih, List.map_cons, joinWith_cons _ _ (by simp)]
      simp
  rw [jsonObject, List.cons_append, hjoin]

lemma jsonField_append (key : String) (value rest : Text) :
    jsonField (key, value) ++ rest = (quoted key.toList ++ [':']) ++ (value ++ rest) := by
  simp [jsonField]

variable {key : String} {fields others : List (String × Text)} {s t v w : Text}

lemma jsonTail_quoted_inj
    (h : jsonTail ((key, quoted s) :: fields) = jsonTail ((key, quoted t) :: others)) :
    s = t ∧ jsonTail fields = jsonTail others := by
  rw [jsonTail_cons, jsonTail_cons, jsonField_append, jsonField_append] at h
  exact quoted_append_inj (List.append_cancel_left (List.cons.inj h).2)

lemma jsonTail_last_inj (h : jsonTail [(key, v)] = jsonTail [(key, w)]) : v = w := by
  rw [jsonTail_cons, jsonTail_cons, jsonField_append, jsonField_append] at h
  exact List.append_cancel_right (List.append_cancel_left (List.cons.inj h).2)

lemma jsonObject_quoted_inj
    (h : jsonObject ((key, quoted s) :: fields) = jsonObject ((key, quoted t) :: others)) :
    s = t ∧ jsonTail fields = jsonTail others := by
  rw [jsonObject_cons, jsonObject_cons] at h
  apply jsonTail_quoted_inj
  rw [jsonTail_cons, jsonTail_cons, (List.cons.inj h).2]

end LexRules.Text
