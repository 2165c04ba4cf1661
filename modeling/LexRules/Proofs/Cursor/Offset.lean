import LexRules.Proofs.Cursor.Doubling

/-! A cursor kept as a byte offset into its source. A slice of a text exists only between two
characters; a scan that adds up offsets never asks for any other slice, and it reads the same
stretches. -/

namespace LexRules

namespace Text

variable {s t a b : Text} {n first last : Nat}

lemma byteSize_pos (ht : t ≠ []) : 0 < byteSize t := by
  cases t with
  | nil => exact absurd rfl ht
  | cons c t =>
    rw [byteSize_cons]
    exact Nat.add_pos_left c.utf8Size_pos _

/-- The two parts of a text at a byte offset. There are none where the offset lies within a character or
behind the end. -/
def cut? : Nat → Text → Option (Text × Text)
  | 0, t => some ([], t)
  | _ + 1, [] => none
  | n + 1, c :: t =>
    if c.utf8Size ≤ n + 1 then (cut? (n + 1 - c.utf8Size) t).map fun p => (c :: p.1, p.2) else none

lemma cut_byteSize (a b : Text) : cut? (byteSize a) (a ++ b) = some (a, b) := by
  induction a with
  | nil => simp [cut?]
  | cons c a ih =>
    obtain ⟨n, hn⟩ : ∃ n, byteSize (c :: a) = n + 1 :=
      Nat.exists_eq_succ_of_ne_zero (Nat.ne_of_gt (byteSize_pos (List.cons_ne_nil c a)))
    have hle : c.utf8Size ≤ n + 1 := by
      rw [← hn, byteSize_cons]
      exact Nat.le_add_right _ _
    have hrest : n + 1 - c.utf8Size = byteSize a := by
      rw [← hn, byteSize_cons, Nat.add_sub_cancel_left]
    rw [hn, List.cons_append, cut?, if_pos hle, hrest, ih]
    rfl

lemma cut_eq_some (h : cut? n t = some (a, b)) : t = a ++ b ∧ byteSize a = n := by
  induction t generalizing n a with
  | nil =>
    cases n with
    | zero =>
      obtain ⟨rfl, rfl⟩ := Prod.mk.inj (Option.some.inj h)
      exact ⟨rfl, rfl⟩
    | succ n => exact absurd h nofun
  | cons c t ih =>
    cases n with
    | zero =>
      obtain ⟨rfl, rfl⟩ := Prod.mk.inj (Option.some.inj h)
      exact ⟨rfl, rfl⟩
    | succ n =>
      rw [cut?] at h
      split at h
      · rename_i hle
        obtain ⟨⟨before, behind⟩, hcut, heq⟩ := Option.map_eq_some_iff.1 h
        obtain ⟨rfl, rfl⟩ := Prod.mk.inj heq
        obtain ⟨rfl, hsize⟩ := ih hcut
        refine ⟨rfl, ?_⟩
        rw [byteSize_cons, hsize]
        omega
      · exact absurd h nofun

def before? (n : Nat) (t : Text) : Option Text := (cut? n t).map Prod.fst

def behind? (n : Nat) (t : Text) : Option Text := (cut? n t).map Prod.snd

def slice? (first last : Nat) (t : Text) : Option Text :=
  if first ≤ last then (behind? first t).bind (before? (last - first)) else none

lemma before_byteSize (a b : Text) : before? (byteSize a) (a ++ b) = some a := by
  rw [before?, cut_byteSize]
  rfl

lemma behind_byteSize (a b : Text) : behind? (byteSize a) (a ++ b) = some b := by
  rw [behind?, cut_byteSize]
  rfl

lemma slice_byteSize (a s b : Text) :
    slice? (byteSize a) (byteSize a + byteSize s) (a ++ (s ++ b)) = some s := by
  rw [slice?, if_pos (Nat.le_add_right _ _), behind_byteSize, Nat.add_sub_cancel_left]
  exact before_byteSize s b

lemma le_of_behind {d after : Text} (h : behind? n t = some after) (hd : d.isPrefixOf after = true) :
    n + byteSize d ≤ byteSize t := by
  obtain ⟨⟨before, behind⟩, hcut, rfl⟩ := Option.map_eq_some_iff.1 h
  obtain ⟨rfl, hsize⟩ := cut_eq_some hcut
  obtain ⟨rest, rfl⟩ := List.isPrefixOf_iff_prefix.1 hd
  simp only [byteSize_append]
  omega

def find? (d t : Text) : Option Nat := (Field.splitAtFirst? d t).map fun p => byteSize p.1

end Text

structure Scan where
  text : Text
  passed : Nat
  closed : Bool
  deriving DecidableEq

namespace Scan

/-- Scans `s` from the offset `start` on, where `copied` was read so far. There is no scan if a slice
does not exist. -/
def read? (d : Text) (hd : d ≠ []) (escaping : Bool) (s copied : Text) (start : Nat) : Option Scan :=
  match Text.behind? start s with
  | none => none
  | some behind =>
    match Text.find? d behind with
    | none => some ⟨copied ++ behind, Text.byteSize s, false⟩
    | some found =>
      match hafter : Text.behind? (start + found + Text.byteSize d) s with
      | none => none
      | some after =>
        if hdouble : escaping && d.isPrefixOf after then
          have := Text.byteSize_pos hd
          have := Text.le_of_behind hafter (Bool.and_eq_true_iff.1 hdouble).2
          match Text.slice? start (start + found + Text.byteSize d) s with
          | none => none
          | some piece =>
            read? d hd escaping s (copied ++ piece) (start + found + Text.byteSize d + Text.byteSize d)
        else (Text.slice? start (start + found) s).map fun piece =>
          ⟨copied ++ piece, start + found + Text.byteSize d, true⟩
termination_by Text.byteSize s - start
decreasing_by omega

variable {d copied a before tail : Text} (hd : d ≠ []) {escaping : Bool}

lemma read_eq (s copied : Text) (start : Nat) : read? d hd escaping s copied start =
    (Text.behind? start s).bind fun behind =>
      match Text.find? d behind with
      | none => some ⟨copied ++ behind, Text.byteSize s, false⟩
      | some found => (Text.behind? (start + found + Text.byteSize d) s).bind fun after =>
        if escaping && d.isPrefixOf after then
          (Text.slice? start (start + found + Text.byteSize d) s).bind fun piece =>
            read? d hd escaping s (copied ++ piece) (start + found + Text.byteSize d + Text.byteSize d)
        else (Text.slice? start (start + found) s).map fun piece =>
          ⟨copied ++ piece, start + found + Text.byteSize d, true⟩ := by
  rw [read?]
  repeat' split
  all_goals simp only [*, Option.bind_none, Option.bind_some, if_true, if_false, Bool.false_eq_true]

lemma read_clear (h : Field.Clear d tail []) :
    read? d hd escaping (a ++ tail) copied (Text.byteSize a) =
      some ⟨copied ++ tail, Text.byteSize (a ++ tail), false⟩ := by
  have hfind : Text.find? d tail = none := by
    rw [Text.find?, Field.splitAtFirst_eq_none_iff.2 h]
    rfl
  rw [read_eq, Text.behind_byteSize, Option.bind_some, hfind]

include hd in
lemma find_clear (h : Field.Clear d before (d ++ tail)) :
    Text.find? d (before ++ d ++ tail) = some (Text.byteSize before) := by
  rw [Text.find?, Field.splitAtFirst_of_clear hd h]
  rfl

lemma behind_clear (a before d tail : Text) :
    Text.behind? (Text.byteSize a + Text.byteSize before + Text.byteSize d)
      (a ++ (before ++ d ++ tail)) = some tail := by
  have hbehind := Text.behind_byteSize (a ++ before ++ d) tail
  simpa [Nat.add_assoc] using hbehind

lemma read_single (h : Field.Clear d before (d ++ tail)) (hlast : escaping = true → ¬ d <+: tail) :
    read? d hd escaping (a ++ (before ++ d ++ tail)) copied (Text.byteSize a) =
      some ⟨copied ++ before, Text.byteSize (a ++ before ++ d), true⟩ := by
  have hsingle : ¬ (escaping && d.isPrefixOf tail) = true := by
    rw [Bool.and_eq_true, List.isPrefixOf_iff_prefix]
    exact fun hboth => hlast hboth.1 hboth.2
  have hpiece := Text.slice_byteSize a before (d ++ tail)
  rw [← List.append_assoc before] at hpiece
  rw [read_eq, Text.behind_byteSize, Option.bind_some, find_clear hd h]
  simp only [behind_clear, Option.bind_some]
  rw [if_neg hsingle, hpiece, Option.map_some, Text.byteSize_append, Text.byteSize_append]

lemma read_pair (h : Field.Clear d before (d ++ (d ++ tail))) :
    read? d hd true (a ++ (before ++ d ++ (d ++ tail))) copied (Text.byteSize a) =
      read? d hd true (a ++ (before ++ d ++ (d ++ tail))) (copied ++ (before ++ d))
        (Text.byteSize (a ++ (before ++ d ++ d))) := by
  have hdouble : (true && d.isPrefixOf (d ++ tail)) = true := by simp
  have hpiece := Text.slice_byteSize a (before ++ d) (d ++ tail)
  rw [read_eq, Text.behind_byteSize, Option.bind_some, find_clear hd h]
  simp only [behind_clear, Option.bind_some]
  rw [if_pos hdouble]
  simp only [Text.byteSize_append, ← Nat.add_assoc] at hpiece ⊢
  rw [hpiece, Option.bind_some]

lemma read_eq_field (a s copied : Text) : read? d hd escaping (a ++ s) copied (Text.byteSize a) =
    some ⟨copied ++ (Field.read d hd escaping s).text,
      Text.byteSize (a ++ s) - Text.byteSize (Field.read d hd escaping s).rest,
      (Field.read d hd escaping s).closed⟩ := by
  induction s using Field.stretch_induction hd escaping generalizing a copied with
  | none s hclear =>
    rw [read_clear hd hclear, Field.read_clear hd hclear]
    rfl
  | single before tail hclear hlast =>
    rw [read_single hd hclear hlast, Field.read_single hd hclear hlast]
    have hpassed : Text.byteSize (a ++ (before ++ d ++ tail)) - Text.byteSize tail =
        Text.byteSize (a ++ before ++ d) := by
      simp only [Text.byteSize_append]
      omega
    rw [hpassed]
  | pair hescape before s hclear ih =>
    subst hescape
    have happend : a ++ (before ++ d ++ (d ++ s)) = a ++ (before ++ d ++ d) ++ s := by simp
    rw [read_pair hd hclear, Field.read_pair hd hclear, happend, ih]
    simp

end Scan

end LexRules
