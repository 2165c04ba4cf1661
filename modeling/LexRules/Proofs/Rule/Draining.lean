import LexRules.Proofs.Rule.Reading
import LexRules.Proofs.Text.Lines

/-! A reader that is called again and again, behind its end too. What it answers is told by the lines
above the first that is not UTF-8; that one is answered by a single fault, and nothing from there on is
read. -/

namespace LexRules

namespace Text

/-- Bytes cut above their first line that is not UTF-8, if there is one: the lines above it, and the
pieces from it on. -/
structure CutAt (bytes : Bytes) (lines : List Text) (rest : List (Bytes × Bool)) : Prop where
  above : ∃ above, Pieces 0x0A bytes (above ++ rest) ∧
    above.map (fun p => byteLine? p.1 p.2) = lines.map some
  not_utf8 : ∀ p more, rest = p :: more → decodeUtf8 p.1 = none

lemma exists_readable_prefix (ps : List (Bytes × Bool)) :
    ∃ (above rest : List (Bytes × Bool)) (lines : List Text), ps = above ++ rest ∧
      above.map (fun p => byteLine? p.1 p.2) = lines.map some ∧
      ∀ p more, rest = p :: more → decodeUtf8 p.1 = none := by
  induction ps with
  | nil => exact ⟨[], [], [], rfl, rfl, nofun⟩
  | cons p ps ih =>
    cases hp : decodeUtf8 p.1 with
    | none =>
      refine ⟨[], p :: ps, [], rfl, rfl, ?_⟩
      intro q more heq
      rw [← (List.cons.inj heq).1, hp]
    | some t =>
      obtain ⟨above, rest, lines, rfl, habove, hrest⟩ := ih
      refine ⟨p :: above, rest, lineOf t p.2 :: lines, rfl, ?_, hrest⟩
      rw [List.map_cons, List.map_cons, habove, byteLine?, hp]
      rfl

end Text

namespace Reader

def after (r : Reader) : Nat → Reader
  | 0 => r
  | n + 1 => (r.after n).next.2

def answer (r : Reader) (n : Nat) : Option Item := (r.after n).next.1

def given (required : Bool) (lines : List Text) : List Item :=
  (List.range lines.length).flatMap (itemsAt required none 0 lines)

def ending (path : Option Path) : List (Text.Bytes × Bool) → List Item
  | [] => []
  | _ :: _ => [.error (ioFault path .notUtf8)]

structure Streams (r : Reader) (lines : List Text) (last : List Item) : Prop where
  answers : ∀ n, r.answer n = (given r.required lines ++ last)[n]?
  parsed : ∀ item ∈ given r.required lines,
    (∃ rule, item = .ok rule) ∨ ∃ number flaw line, item = .error (.badLine number flaw line)
  ends : ∀ n, lines.length + last.length ≤ n → r.answer n = none
  /-- The section in force is told by the lines counted so far, which are never more than `lines`. -/
  space : ∀ n, (r.after n).number ≤ lines.length ∧
    (r.after n).space = Rule.sectionFrom none (lines.take (r.after n).number)
  stands : ∀ n item i, r.answer n = some item → number? item = some i → (r.after (n + 1)).number = i
  settles : ∀ n, (given r.required lines).length < n → (r.after n).number = lines.length
  advances : ∀ n, (r.after (n + 1)).pending.length < (r.after n).pending.length ∨
    ∀ m, n ≤ m → r.answer m = none

variable {path : Option Path} {required : Bool} {space : Option Text} {number : Nat}

lemma pending_nextFrom {lines : List (Except IoCause Text)}
    (h : ∀ item, (nextFrom path required space number lines).1 = some item → number? item = none) :
    (nextFrom path required space number lines).2.pending = [] := by
  induction lines generalizing space number with
  | nil => rfl
  | cons line lines ih =>
    cases line with
    | error cause => rfl
    | ok line =>
      rw [nextFrom] at h ⊢
      cases hof : LineReading.of required space (number + 1) line with
      | blank =>
        rw [hof] at h
        exact ih h
      | opens name =>
        rw [hof] at h
        exact ih h
      | rule rule =>
        rw [hof] at h
        exact absurd (h _ rfl) (Option.some_ne_none _)
      | malformed flaw =>
        rw [hof] at h
        exact absurd (h _ rfl) (Option.some_ne_none _)

lemma pending_next {r : Reader} (h : ∀ item, r.next.1 = some item → number? item = none) :
    r.next.2.pending = [] := pending_nextFrom h

lemma items_of_pending {r : Reader} (h : r.pending = []) : r.items = [] := by
  obtain ⟨path, required, pending, space, number⟩ := r
  obtain rfl : pending = [] := h
  exact items_nil path required space number

lemma next_eq (r : Reader) : r.next.1 = r.items.head? ∧ r.next.2.items = r.items.tail := by
  rw [items_eq r]
  cases hnext : r.next with
  | mk item r' =>
    cases item with
    | some item => exact ⟨rfl, rfl⟩
    | none =>
      refine ⟨rfl, items_of_pending ?_⟩
      have hpending : r.next.2.pending = [] := pending_next (by rw [hnext]; exact nofun)
      rwa [hnext] at hpending

lemma items_after (r : Reader) (n : Nat) : (r.after n).items = r.items.drop n := by
  induction n with
  | zero => rfl
  | succ n ih => rw [after, (next_eq _).2, ih, List.tail_drop]

lemma answer_eq (r : Reader) (n : Nat) : r.answer n = r.items[n]? := by
  rw [answer, (next_eq _).1, items_after, List.head?_drop]

lemma length_pending_next (r : Reader) :
    r.next.2.pending.length < r.pending.length ∨ r.pending = [] := by
  by_cases hpending : r.pending = []
  · exact Or.inr hpending
  refine Or.inl ?_
  cases hnext : r.next with
  | mk item r' =>
    cases item with
    | some item => exact length_nextFrom_lt hnext
    | none =>
      have hnil : r.next.2.pending = [] := pending_next (by rw [hnext]; exact nofun)
      rw [hnext] at hnil
      rw [hnil]
      exact List.length_pos_iff.2 hpending

/-- A reader behind the first `k` of some lines: it stands directly behind them, or nothing is left and
they are all of them. -/
structure Counted (lines : List Text) (rest : List (Except IoCause Text)) (space : Option Text)
    (number k : Nat) (r : Reader) : Prop where
  le : k ≤ lines.length
  number_eq : r.number = number + k
  space_eq : r.space = Rule.sectionFrom space (lines.take k)
  pending : r.pending = (lines.drop k).map .ok ++ rest ∨ r.pending = [] ∧ k = lines.length

lemma Counted.cons {line : Text} {lines : List Text} {rest : List (Except IoCause Text)} {k : Nat}
    {r : Reader} (h : Counted lines rest ((Rule.opened? line).or space) (number + 1) k r) :
    Counted (line :: lines) rest space number (k + 1) r where
  le := Nat.succ_le_succ h.le
  number_eq := by rw [h.number_eq]; omega
  space_eq := by rw [h.space_eq, List.take_succ_cons, Rule.sectionFrom_cons]
  pending := h.pending.imp id fun hend => ⟨hend.1, congrArg Nat.succ hend.2⟩

lemma counted_nextFrom (lines : List Text) {rest : List (Except IoCause Text)}
    (hrest : ∀ x more, rest = x :: more → ∃ cause, x = .error cause) :
    ∃ k, Counted lines rest space number k
      (nextFrom path required space number (lines.map .ok ++ rest)).2 := by
  induction lines generalizing space number with
  | nil =>
    refine ⟨0, Nat.le_refl 0, ?_, ?_, Or.inr ⟨?_, rfl⟩⟩ <;> cases rest with
    | nil => rfl
    | cons x more =>
      obtain ⟨cause, rfl⟩ := hrest x more rfl
      rfl
  | cons line lines ih =>
    have hafter := LineReading.sectionAfter_of required space (number + 1) line
    rw [List.map_cons, List.cons_append, nextFrom]
    cases hof : LineReading.of required space (number + 1) line with
    | blank =>
      rw [hof] at hafter
      obtain ⟨k, hk⟩ := @ih space (number + 1)
      exact ⟨k + 1, .cons (hafter ▸ hk)⟩
    | opens name =>
      rw [hof] at hafter
      obtain ⟨k, hk⟩ := @ih (some name) (number + 1)
      exact ⟨k + 1, .cons (hafter ▸ hk)⟩
    | rule rule =>
      rw [hof] at hafter
      exact ⟨1, .cons ⟨Nat.zero_le _, rfl, hafter, Or.inl rfl⟩⟩
    | malformed flaw =>
      rw [hof] at hafter
      exact ⟨1, .cons ⟨Nat.zero_le _, rfl, hafter, Or.inl rfl⟩⟩

lemma number_nextFrom {lines : List (Except IoCause Text)} {item : Item} {i : Nat}
    (h : (nextFrom path required space number lines).1 = some item) (hi : number? item = some i) :
    (nextFrom path required space number lines).2.number = i := by
  induction lines generalizing space number with
  | nil => exact absurd h nofun
  | cons line lines ih =>
    cases line with
    | error cause =>
      obtain rfl := Option.some.inj h
      cases path <;> exact absurd hi nofun
    | ok line =>
      rw [nextFrom] at h ⊢
      have hspec := LineReading.of_spec required space (number + 1) line
      cases hof : LineReading.of required space (number + 1) line with
      | blank =>
        rw [hof] at h
        exact ih h
      | opens name =>
        rw [hof] at h
        exact ih h
      | rule rule =>
        rw [hof] at h hspec
        obtain rfl := Option.some.inj h
        exact hspec.2.2.symm.trans (Option.some.inj hi)
      | malformed flaw =>
        rw [hof] at h
        obtain rfl := Option.some.inj h
        exact Option.some.inj hi

variable {lines : List Text} {rest : List (Except IoCause Text)}

lemma Counted.trans {k j : Nat} {r r' : Reader} (hk : Counted lines rest space number k r)
    (hj : Counted (lines.drop k) rest r.space r.number j r') :
    Counted lines rest space number (k + j) r' where
  le := by
    have hle := hj.le
    rw [List.length_drop] at hle
    have := hk.le
    omega
  number_eq := by rw [hj.number_eq, hk.number_eq, Nat.add_assoc]
  space_eq := by rw [hj.space_eq, hk.space_eq, List.take_add, Rule.sectionFrom_append]
  pending := by
    refine hj.pending.imp (fun h => ?_) (fun h => ⟨h.1, ?_⟩)
    · rw [h, List.drop_drop]
    · have hle := hk.le
      rw [h.2, List.length_drop]
      omega

lemma Counted.number_of_pending {k : Nat} {r : Reader} (h : Counted lines rest space number k r)
    (hpending : r.pending = []) : r.number = number + lines.length := by
  rw [h.number_eq]
  rcases h.pending with hdrop | ⟨-, rfl⟩
  · rw [hpending, eq_comm, List.append_eq_nil_iff, List.map_eq_nil_iff, List.drop_eq_nil_iff] at hdrop
    rw [Nat.le_antisymm h.le hdrop.1]
  · rfl

lemma counted_next {k : Nat} {r : Reader} (hrest : ∀ x more, rest = x :: more → ∃ cause, x = .error cause)
    (h : Counted lines rest space number k r) : ∃ j, Counted lines rest space number j r.next.2 := by
  rcases h.pending with hpending | ⟨hpending, hk⟩
  · have hcall : ∃ j, Counted (lines.drop k) rest r.space r.number j
        (nextFrom r.path r.required r.space r.number ((lines.drop k).map .ok ++ rest)).2 :=
      counted_nextFrom (lines.drop k) hrest
    obtain ⟨j, hj⟩ := hcall
    rw [← hpending] at hj
    exact ⟨k + j, h.trans hj⟩
  · refine ⟨k, h.le, ?_, ?_, Or.inr ⟨?_, hk⟩⟩ <;> rw [next, hpending, nextFrom]
    · exact h.number_eq
    · exact h.space_eq

lemma counted_after (lines : List Text) (hrest : ∀ x more, rest = x :: more → ∃ cause, x = .error cause)
    (path : Option Path) (required : Bool) (n : Nat) :
    ∃ k, Counted lines rest none 0 k ((ofLines path required (lines.map .ok ++ rest)).after n) := by
  induction n with
  | zero => exact ⟨0, Nat.zero_le _, rfl, rfl, Or.inl rfl⟩
  | succ n ih =>
    obtain ⟨k, hk⟩ := ih
    exact counted_next hrest hk

lemma length_given_le (required : Bool) (lines : List Text) :
    (given required lines).length ≤ lines.length := by
  suffices h : ∀ is : List Nat, (is.flatMap (itemsAt required none 0 lines)).length ≤ is.length by
    have hrange := h (List.range lines.length)
    rwa [List.length_range] at hrange
  intro is
  induction is with
  | nil => exact Nat.le_refl 0
  | cons i is ih =>
    have hone := length_itemsAt_le required none 0 lines i
    rw [List.flatMap_cons, List.length_append, List.length_cons]
    omega

lemma parsed_of_mem_given {item : Item} (h : item ∈ given required lines) :
    (∃ rule, item = .ok rule) ∨ ∃ number flaw line, item = .error (.badLine number flaw line) := by
  obtain ⟨i, -, hitem⟩ := List.mem_flatMap.1 h
  rw [itemsAt] at hitem
  cases hline : lines[i]? with
  | none =>
    rw [hline] at hitem
    exact absurd hitem List.not_mem_nil
  | some line =>
    rw [hline] at hitem
    simp only [LineReading.items] at hitem
    split at hitem
    · exact Or.inl ⟨_, List.mem_singleton.1 hitem⟩
    · exact Or.inr ⟨_, _, _, List.mem_singleton.1 hitem⟩
    · exact absurd hitem List.not_mem_nil

lemma streams_ofLines (path : Option Path) (required : Bool) (lines : List Text)
    {rest : List (Except IoCause Text)} {last : List Item}
    (hrest : ∀ x more, rest = x :: more → ∃ cause, x = .error cause)
    (hlast : ∀ space number, items ⟨path, required, rest, space, number⟩ = last)
    (hnumber : ∀ item ∈ last, number? item = none) :
    (ofLines path required (lines.map .ok ++ rest)).Streams lines last := by
  have hitems : (ofLines path required (lines.map .ok ++ rest)).items = given required lines ++ last := by
    rw [ofLines, items_append, hlast, given]
  have hanswers : ∀ n, (ofLines path required (lines.map .ok ++ rest)).answer n =
      (given required lines ++ last)[n]? := by
    intro n
    rw [answer_eq, hitems]
  have hcount := counted_after lines hrest path required
  have hends : ∀ n, (given required lines ++ last).length ≤ n → ∀ m, n ≤ m →
      (ofLines path required (lines.map .ok ++ rest)).answer m = none := by
    intro n hn m hm
    rw [hanswers, List.getElem?_eq_none (Nat.le_trans hn hm)]
  constructor
  case answers => exact hanswers
  case parsed => exact fun item => parsed_of_mem_given
  case ends =>
    intro n hn
    refine hends _ (Nat.le_refl _) n (Nat.le_trans ?_ hn)
    rw [List.length_append]
    exact Nat.add_le_add_right (length_given_le required lines) _
  case space =>
    intro n
    obtain ⟨k, hk⟩ := hcount n
    have hnumber := hk.number_eq
    rw [Nat.zero_add] at hnumber
    rw [hnumber]
    exact ⟨hk.le, hk.space_eq⟩
  case stands => exact fun n item i hitem hi => number_nextFrom hitem hi
  case settles =>
    intro n hn
    obtain ⟨n, rfl⟩ := Nat.exists_eq_add_one.2 (Nat.zero_lt_of_lt hn)
    -- The call before answered the fault, or nothing, so no line is left behind it.
    have hpending : ((ofLines path required (lines.map .ok ++ rest)).after (n + 1)).pending = [] := by
      refine pending_next fun item hitem => hnumber item ?_
      have hanswer := (hanswers n).symm.trans hitem
      have hn : (given required lines).length ≤ n := Nat.le_of_lt_succ hn
      rw [List.getElem?_append_right hn] at hanswer
      exact List.mem_of_getElem? hanswer
    obtain ⟨k, hk⟩ := hcount (n + 1)
    rw [hk.number_of_pending hpending, Nat.zero_add]
  case advances =>
    intro n
    refine (length_pending_next _).imp id fun hpending m hm => ?_
    refine hends n ?_ m hm
    have hdrop := items_after (ofLines path required (lines.map .ok ++ rest)) n
    rw [items_of_pending hpending, hitems] at hdrop
    exact List.drop_eq_nil_iff.1 hdrop.symm

def lineOr (p : Text.Bytes × Bool) : Except IoCause Text :=
  match Text.byteLine? p.1 p.2 with
  | some t => .ok t
  | none => .error .notUtf8

lemma linesOf_eq (bytes : Text.Bytes) : linesOf bytes = (Text.pieces 0x0A bytes).map lineOr := by
  rw [linesOf, Text.byteLines, List.map_map]
  rfl

lemma map_lineOr {ps : List (Text.Bytes × Bool)} {lines : List Text}
    (h : ps.map (fun p => Text.byteLine? p.1 p.2) = lines.map some) :
    ps.map lineOr = lines.map .ok := by
  have hlines := congrArg (List.map fun line => match line with
    | some t => (.ok t : Except IoCause Text)
    | none => .error .notUtf8) h
  rwa [List.map_map, List.map_map] at hlines

lemma lineOr_of_not_utf8 {p : Text.Bytes × Bool} (h : Text.decodeUtf8 p.1 = none) :
    lineOr p = .error .notUtf8 := by
  rw [lineOr, Text.byteLine?, h]
  rfl

lemma items_ending {rest : List (Text.Bytes × Bool)}
    (hrest : ∀ p more, rest = p :: more → Text.decodeUtf8 p.1 = none) (space : Option Text)
    (number : Nat) : items ⟨path, required, rest.map lineOr, space, number⟩ = ending path rest := by
  cases rest with
  | nil => exact items_nil path required space number
  | cons p more =>
    rw [items_eq, List.map_cons, lineOr_of_not_utf8 (hrest p more rfl), next, nextFrom]
    exact congrArg _ (items_nil path required space number)

theorem streams_bytes (path : Option Path) (required : Bool) (bytes : Text.Bytes) :
    ∃ lines rest, Text.CutAt bytes lines rest ∧
      (ofLines path required (linesOf bytes)).Streams lines (ending path rest) := by
  obtain ⟨above, rest, lines, hpieces, habove, hrest⟩ :=
    Text.exists_readable_prefix (Text.pieces 0x0A bytes)
  refine ⟨lines, rest, ⟨⟨above, hpieces ▸ Text.pieces_spec 0x0A bytes, habove⟩, hrest⟩, ?_⟩
  rw [linesOf_eq, hpieces, List.map_append, map_lineOr habove]
  refine streams_ofLines path required lines ?_ (items_ending hrest) ?_
  · intro x more heq
    obtain ⟨p, others, rfl, rfl, -⟩ := List.map_eq_cons_iff.1 heq
    exact ⟨.notUtf8, lineOr_of_not_utf8 (hrest p others rfl)⟩
  · intro item hitem
    cases rest with
    | nil => exact absurd hitem List.not_mem_nil
    | cons p more =>
      obtain rfl := List.mem_singleton.1 hitem
      cases path <;> rfl

end Reader

end LexRules
