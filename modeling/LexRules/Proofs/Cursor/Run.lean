import LexRules.Proofs.Cursor.Offset

/-! Whole runs of a cursor. Whatever is called and in whatever order, the cursor stands between two
characters of its source, it never moves back, and what it passes over is what it gives, together
with the delimiters. -/

namespace LexRules

namespace Cursor

inductive Call
  | peek (n : Nat)
  | remaining
  | skip (n : Nat)
  | takeUntil (d : Text) (escaping : Bool)
  | takeField (d : Text) (escaping : Bool)
  | takeRest

def Call.Idle (answer : Option Text) : Call → Prop
  | .peek _ | .remaining => True
  | .skip _ | .takeRest => False
  | .takeUntil d _ => d = []
  | .takeField d _ => d = [] ∨ answer = none

def call (c : Cursor) : Call → Option Text × Cursor
  | .peek n => (some (c.peek n), c)
  | .remaining => (some c.remaining, c)
  | .skip n => (some (c.take n).1, (c.take n).2)
  | .takeUntil d escaping => (some (c.takeUntil d escaping).1, (c.takeUntil d escaping).2)
  | .takeField d escaping =>
    match c.takeField? d escaping with
    | some (t, next) => (some t, next)
    | none => (none, c)
  | .takeRest => (some c.takeRest.1, c.takeRest.2)

structure Move where
  before : Cursor
  call : Call

namespace Move

def answer (m : Move) : Option Text := (m.before.call m.call).1

def after (m : Move) : Cursor := (m.before.call m.call).2

def passed (m : Move) : Text :=
  m.before.remaining.take (m.before.remaining.length - m.after.remaining.length)

end Move

def moves (c : Cursor) : List Call → List Move
  | [] => []
  | call :: calls => ⟨c, call⟩ :: moves (c.call call).2 calls

def finish (c : Cursor) (calls : List Call) : Cursor := calls.foldl (fun c call => (c.call call).2) c

/-- The stretch of `s` up to `d`: what is read, and what is passed over. It is closed when a `d` ends
it. -/
inductive Stretch (d s : Text) : (escaping closed : Bool) → (text passed : Text) → Prop
  | plain {text rest : Text} : s = text ++ (d ++ rest) → Field.Clear d text (d ++ rest) →
      Stretch d s false true text (text ++ d)
  | plainRest : Field.Clear d s [] → Stretch d s false false s s
  | escaped {raw rest : Text} : s = raw ++ (d ++ rest) → Field.Paired d (d ++ rest) raw →
      ¬ d <+: rest → Stretch d s true true (Field.collapse d raw) (raw ++ d)
  | escapedRest : Field.Paired d [] s → Stretch d s true false (Field.collapse d s) s

inductive Passes (s : Text) : Call → (passed : Text) → (answer : Option Text) → Prop
  | peek (n : Nat) : Passes s (.peek n) [] (some (s.take n))
  | remaining : Passes s .remaining [] (some s)
  | skip (n : Nat) : Passes s (.skip n) (s.take n) (some (s.take n))
  | takeRest : Passes s .takeRest s (some s)
  | untilEmpty (escaping : Bool) : Passes s (.takeUntil [] escaping) [] (some [])
  | fieldEmpty (escaping : Bool) : Passes s (.takeField [] escaping) [] none
  | takeUntil {d text passed : Text} {escaping closed : Bool} : d ≠ [] →
      Stretch d s escaping closed text passed → Passes s (.takeUntil d escaping) passed (some text)
  | takeField {d text passed : Text} {escaping : Bool} : d ≠ [] →
      Stretch d s escaping true text passed → Passes s (.takeField d escaping) passed (some text)
  | noField {d text passed : Text} {escaping : Bool} : d ≠ [] →
      Stretch d s escaping false text passed → Passes s (.takeField d escaping) [] none

variable {c : Cursor} {d s rest passed text : Text} {escaping : Bool}

lemma stretch_read (hd : d ≠ []) (escaping : Bool) (s : Text) : ∃ passed,
    s = passed ++ (Field.read d hd escaping s).rest ∧
      Stretch d s escaping (Field.read d hd escaping s).closed (Field.read d hd escaping s).text
        passed := by
  have hends := Field.read_ends hd escaping s
  cases escaping with
  | false =>
    obtain ⟨heq, hclear⟩ := Field.read_passes_plain hd s
    cases hclosed : (Field.read d hd false s).closed with
    | true =>
      rw [Field.ending, if_pos hclosed] at heq hclear
      exact ⟨_, by rwa [List.append_assoc], .plain heq hclear⟩
    | false =>
      rw [Field.ending, hclosed, if_neg Bool.false_ne_true] at heq hclear
      rw [hclosed, if_neg Bool.false_ne_true] at hends
      rw [List.append_nil] at heq
      rw [hends, ← heq]
      rw [← heq] at hclear
      exact ⟨s, (List.append_nil s).symm, .plainRest hclear⟩
  | true =>
    obtain ⟨raw, heq, hpaired, htext⟩ := Field.read_passes hd s
    rw [← htext]
    cases hclosed : (Field.read d hd true s).closed with
    | true =>
      rw [Field.ending, if_pos hclosed] at heq hpaired
      rw [if_pos hclosed] at hends
      exact ⟨_, by rwa [List.append_assoc], .escaped heq hpaired (hends rfl)⟩
    | false =>
      rw [Field.ending, hclosed, if_neg Bool.false_ne_true] at heq hpaired
      rw [hclosed, if_neg Bool.false_ne_true] at hends
      rw [List.append_nil] at heq
      subst heq
      rw [hends]
      exact ⟨s, (List.append_nil s).symm, .escapedRest hpaired⟩

lemma moveTo_eq (h : c.remaining = passed ++ rest) : c.moveTo rest = ⟨c.consumed ++ passed, rest⟩ := by
  simp [moveTo, advance, h]

def Between (c next : Cursor) (passed : Text) : Prop :=
  c.remaining = passed ++ next.remaining ∧ next.consumed = c.consumed ++ passed

lemma between_self (c : Cursor) : c.Between c [] := ⟨rfl, (List.append_nil _).symm⟩

lemma between_moveTo (h : c.remaining = passed ++ rest) : c.Between (c.moveTo rest) passed := by
  rw [moveTo_eq h]
  exact ⟨h, rfl⟩

lemma call_passes (c : Cursor) (call : Call) : ∃ passed, c.Between (c.call call).2 passed ∧
    Passes c.remaining call passed (c.call call).1 := by
  cases call with
  | peek n => exact ⟨[], c.between_self, .peek n⟩
  | remaining => exact ⟨[], c.between_self, .remaining⟩
  | skip n => exact ⟨_, ⟨(List.take_append_drop n c.remaining).symm, rfl⟩, .skip n⟩
  | takeRest => exact ⟨_, ⟨(List.append_nil _).symm, rfl⟩, .takeRest⟩
  | takeUntil d escaping =>
    by_cases hd : d = []
    · subst hd
      exact ⟨[], c.between_self, .untilEmpty escaping⟩
    · obtain ⟨passed, heq, hstretch⟩ := stretch_read hd escaping c.remaining
      refine ⟨passed, ?_, ?_⟩
      · simp only [call, takeUntil, dif_neg hd]
        exact between_moveTo heq
      · simp only [call, takeUntil, dif_neg hd]
        exact .takeUntil hd hstretch
  | takeField d escaping =>
    by_cases hd : d = []
    · subst hd
      exact ⟨[], c.between_self, .fieldEmpty escaping⟩
    · obtain ⟨passed, heq, hstretch⟩ := stretch_read hd escaping c.remaining
      simp only [call, takeField?, dif_neg hd]
      cases hclosed : (Field.read d hd escaping c.remaining).closed with
      | true =>
        rw [hclosed] at hstretch
        exact ⟨passed, between_moveTo heq, .takeField hd hstretch⟩
      | false =>
        rw [hclosed] at hstretch
        exact ⟨[], c.between_self, .noField hd hstretch⟩

lemma Between.source_eq {next : Cursor} (h : c.Between next passed) : next.source = c.source := by
  rw [source, source, h.1, h.2, List.append_assoc]

lemma Between.position_eq {next : Cursor} (h : c.Between next passed) :
    next.position = c.position + Text.byteSize passed := by
  rw [position, position, h.2, Text.byteSize_append]

lemma passed_eq {m : Move} (h : m.before.Between m.after passed) : m.passed = passed := by
  rw [Move.passed, h.1, List.length_append, Nat.add_sub_cancel, List.take_left]

lemma Between.slice_eq {next : Cursor} (h : c.Between next passed) :
    Text.slice? c.position next.position c.source = some passed := by
  rw [h.position_eq, source, h.1]
  exact Text.slice_byteSize c.consumed passed next.remaining

lemma cut_position (c : Cursor) : Text.cut? c.position c.source = some (c.consumed, c.remaining) :=
  Text.cut_byteSize c.consumed c.remaining

lemma source_of_mem_moves {calls : List Call} {m : Move} (h : m ∈ c.moves calls) :
    m.before.source = c.source := by
  induction calls generalizing c with
  | nil => exact absurd h List.not_mem_nil
  | cons call calls ih =>
    rcases List.mem_cons.1 h with rfl | h
    · rfl
    · obtain ⟨passed, hbetween, -⟩ := call_passes c call
      exact (ih h).trans hbetween.source_eq

lemma source_finish (c : Cursor) (calls : List Call) : (c.finish calls).source = c.source := by
  induction calls generalizing c with
  | nil => rfl
  | cons call calls ih =>
    obtain ⟨passed, hbetween, -⟩ := call_passes c call
    exact (ih _).trans hbetween.source_eq

lemma flatMap_passed (c : Cursor) (calls : List Call) :
    (c.moves calls).flatMap Move.passed ++ (c.finish calls).remaining = c.remaining := by
  induction calls generalizing c with
  | nil => rfl
  | cons call calls ih =>
    obtain ⟨passed, hbetween, -⟩ := call_passes c call
    have hpassed : (Move.mk c call).passed = passed := passed_eq hbetween
    rw [moves, List.flatMap_cons, hpassed, List.append_assoc]
    exact (congrArg (passed ++ ·) (ih _)).trans hbetween.1.symm

lemma Passes.eq_nil {call : Call} {answer : Option Text} (h : Passes s call passed answer)
    (hidle : call.Idle answer) : passed = [] := by
  cases h with
  | peek | remaining | untilEmpty | fieldEmpty | noField => rfl
  | skip | takeRest => exact hidle.elim
  | takeUntil hd => exact absurd hidle hd
  | takeField hd => exact absurd hidle (not_or.2 ⟨hd, nofun⟩)

structure Move.Sound (source : Text) (m : Move) : Prop where
  inside : m.after.position ≤ Text.byteSize source
  boundary : Text.cut? m.after.position source = some (m.after.consumed, m.after.remaining)
  forward : m.before.position ≤ m.after.position
  idle : m.call.Idle m.answer → m.after.position = m.before.position
  sliced : Text.slice? m.before.position m.after.position source = some m.passed
  passes : Passes m.before.remaining m.call m.passed m.answer

lemma Move.sound_of_source {source : Text} {m : Move} (h : m.before.source = source) :
    m.Sound source := by
  obtain ⟨passed, hbetween, hpasses⟩ := call_passes m.before m.call
  have hpassed : m.passed = passed := passed_eq hbetween
  have hposition : m.after.position = m.before.position + Text.byteSize passed :=
    hbetween.position_eq
  obtain rfl : m.after.source = source := hbetween.source_eq.trans h
  constructor
  case inside =>
    rw [Cursor.source, Text.byteSize_append]
    exact Nat.le_add_right _ _
  case boundary => exact m.after.cut_position
  case forward =>
    rw [hposition]
    exact Nat.le_add_right _ _
  case idle =>
    intro hidle
    rw [hposition, hpasses.eq_nil hidle]
    rfl
  case sliced =>
    rw [hpassed, ← h]
    exact hbetween.slice_eq
  case passes =>
    rw [hpassed]
    exact hpasses

end Cursor

/-- A cursor kept as a byte offset. -/
structure Pointer where
  source : Text
  offset : Nat
  deriving DecidableEq

namespace Pointer

def remaining? (p : Pointer) : Option Text := Text.behind? p.offset p.source

def peek? (p : Pointer) (n : Nat) : Option Text :=
  p.remaining?.bind fun s => Text.before? (Text.byteSize (s.take n)) s

def scan? (p : Pointer) (d : Text) (hd : d ≠ []) (escaping : Bool) : Option Scan :=
  p.remaining?.bind fun s => Scan.read? d hd escaping s [] 0

def advance (p : Pointer) (n : Nat) : Pointer := ⟨p.source, p.offset + n⟩

open Cursor in
/-- What a call gives, and the offset after it, if every slice on the way exists. -/
def call? (p : Pointer) : Call → Option (Option Text × Pointer)
  | .peek n => (p.peek? n).map fun t => (some t, p)
  | .remaining => p.remaining?.map fun t => (some t, p)
  | .skip n => (p.peek? n).map fun t => (some t, p.advance (Text.byteSize t))
  | .takeUntil d escaping =>
    if hd : d = [] then some (some [], p)
    else (p.scan? d hd escaping).map fun scan => (some scan.text, p.advance scan.passed)
  | .takeField d escaping =>
    if hd : d = [] then some (none, p)
    else (p.scan? d hd escaping).map fun scan =>
      if scan.closed then (some scan.text, p.advance scan.passed) else (none, p)
  | .takeRest => p.remaining?.map fun t => (some t, ⟨p.source, Text.byteSize p.source⟩)

def run? (p : Pointer) : List Cursor.Call → Option (List (Option Text) × Pointer)
  | [] => some ([], p)
  | call :: calls => (p.call? call).bind fun given =>
      (run? given.2 calls).map fun next => (given.1 :: next.1, next.2)

def ofCursor (c : Cursor) : Pointer := ⟨c.source, c.position⟩

variable {c next : Cursor} {passed : Text}

lemma remaining_ofCursor (c : Cursor) : (ofCursor c).remaining? = some c.remaining :=
  Text.behind_byteSize c.consumed c.remaining

lemma ofCursor_between (h : c.Between next passed) :
    ofCursor next = (ofCursor c).advance (Text.byteSize passed) := by
  rw [ofCursor, h.source_eq, h.position_eq]
  rfl

lemma peek_ofCursor (c : Cursor) (n : Nat) : (ofCursor c).peek? n = some (c.peek n) := by
  have hbefore := Text.before_byteSize (c.remaining.take n) (c.remaining.drop n)
  rw [List.take_append_drop] at hbefore
  rw [peek?, remaining_ofCursor]
  exact hbefore

lemma scan_ofCursor (c : Cursor) {d : Text} (hd : d ≠ []) (escaping : Bool) :
    (ofCursor c).scan? d hd escaping = some ⟨(Field.read d hd escaping c.remaining).text,
      Text.byteSize c.remaining - Text.byteSize (Field.read d hd escaping c.remaining).rest,
      (Field.read d hd escaping c.remaining).closed⟩ := by
  rw [scan?, remaining_ofCursor]
  exact Scan.read_eq_field hd [] c.remaining []

lemma advance_read (c : Cursor) {d : Text} (hd : d ≠ []) (escaping : Bool) :
    (ofCursor c).advance (Text.byteSize c.remaining -
        Text.byteSize (Field.read d hd escaping c.remaining).rest) =
      ofCursor (c.moveTo (Field.read d hd escaping c.remaining).rest) := by
  obtain ⟨passed, heq, -⟩ := Cursor.stretch_read hd escaping c.remaining
  rw [ofCursor_between (Cursor.between_moveTo heq)]
  congr 1
  have hsize := congrArg Text.byteSize heq
  rw [Text.byteSize_append] at hsize
  omega

lemma call_ofCursor (c : Cursor) (call : Cursor.Call) :
    (ofCursor c).call? call = some ((c.call call).1, ofCursor (c.call call).2) := by
  cases call with
  | peek n =>
    rw [call?, peek_ofCursor]
    rfl
  | remaining =>
    rw [call?, remaining_ofCursor]
    rfl
  | skip n =>
    have hbetween : c.Between (c.advance n) (c.peek n) :=
      ⟨(List.take_append_drop n c.remaining).symm, rfl⟩
    rw [call?, peek_ofCursor, Option.map_some, ← ofCursor_between hbetween]
    rfl
  | takeRest =>
    have hend : ofCursor c.takeRest.2 = ⟨c.source, Text.byteSize c.source⟩ := by
      simp [ofCursor, Cursor.takeRest, Cursor.position, Cursor.source]
    rw [call?, remaining_ofCursor, Option.map_some, Cursor.call, hend]
    rfl
  | takeUntil d escaping =>
    by_cases hd : d = []
    · simp [call?, Cursor.call, Cursor.takeUntil, hd]
    · simp [call?, Cursor.call, Cursor.takeUntil, hd, scan_ofCursor, advance_read]
  | takeField d escaping =>
    by_cases hd : d = []
    · simp [call?, Cursor.call, Cursor.takeField?, hd]
    · simp only [call?, Cursor.call, Cursor.takeField?, dif_neg hd, scan_ofCursor, advance_read,
        Option.map_some]
      split <;> rfl

lemma run_ofCursor (c : Cursor) (calls : List Cursor.Call) : (ofCursor c).run? calls =
    some ((c.moves calls).map Cursor.Move.answer, ofCursor (c.finish calls)) := by
  induction calls generalizing c with
  | nil => rfl
  | cons call calls ih =>
    rw [run?, call_ofCursor, Option.bind_some, ih]
    rfl

end Pointer

namespace Cursor

structure Steady (source : Text) (calls : List Call) : Prop where
  moves : ∀ m ∈ (start source).moves calls, m.Sound source
  whole : ((start source).moves calls).flatMap Move.passed ++ ((start source).finish calls).remaining =
    source
  /-- By byte offsets, no slice is missing on the way, and everything is the same. -/
  offsets : (Pointer.mk source 0).run? calls = some (((start source).moves calls).map Move.answer,
    ⟨source, ((start source).finish calls).position⟩)

theorem steady_run (source : Text) (calls : List Call) : Steady source calls := by
  constructor
  case moves => exact fun m hm => Move.sound_of_source (source_of_mem_moves hm)
  case whole => exact flatMap_passed (start source) calls
  case offsets =>
    have hrun := Pointer.run_ofCursor (start source) calls
    rwa [Pointer.ofCursor, Pointer.ofCursor, source_finish] at hrun

end Cursor

end LexRules
