import LexRules.Rule.Reader
import Mathlib.Tactic.Lemma

/-! A reader as a function of its lines: each line is read by itself, in the section that the lines
before it leave in force, and what it gives stands at its place. -/

namespace LexRules

namespace Rule

def opened? (line : Text) : Option Text :=
  if sectionMark.isPrefixOf line ∧ Text.trim (line.drop sectionMark.length) ≠ [] then
    some (Text.trim (line.drop sectionMark.length))
  else none

def sectionFrom (space : Option Text) (lines : List Text) : Option Text :=
  (lines.filterMap opened?).getLast?.or space

lemma sectionFrom_cons (space : Option Text) (line : Text) (lines : List Text) :
    sectionFrom space (line :: lines) = sectionFrom ((opened? line).or space) lines := by
  rw [sectionFrom, sectionFrom, List.filterMap_cons]
  cases opened? line with
  | none => rfl
  | some name =>
    rw [List.getLast?_cons]
    cases (lines.filterMap opened?).getLast? <;> rfl

lemma sectionFrom_append (space : Option Text) (lines more : List Text) :
    sectionFrom space (lines ++ more) = sectionFrom (sectionFrom space lines) more := by
  induction lines generalizing space with
  | nil => rfl
  | cons line lines ih => rw [List.cons_append, sectionFrom_cons, sectionFrom_cons, ih]

end Rule

namespace LineReading

lemma allBlank_of_mark {line : Text} (h : Rule.sectionMark.isPrefixOf line = true) :
    Text.allBlank line = false := by
  obtain ⟨rest, rfl⟩ := List.isPrefixOf_iff_prefix.1 h
  rfl

lemma of_blank {line : Text} (h : Text.allBlank line = true) (required : Bool) (space : Option Text)
    (number : Nat) : of required space number line = .blank := by
  rw [of, if_pos h]

lemma opened_of_allBlank {line : Text} (h : Text.allBlank line = true) :
    Rule.opened? line = none := by
  rw [Rule.opened?, if_neg]
  rintro ⟨hmark, _⟩
  rw [allBlank_of_mark hmark] at h
  exact absurd h nofun

lemma of_opened {line name : Text} (h : Rule.opened? line = some name) (required : Bool)
    (space : Option Text) (number : Nat) : of required space number line = .opens name := by
  rw [Rule.opened?] at h
  split at h
  · rename_i hmark
    obtain rfl := Option.some.inj h
    simp only [of, allBlank_of_mark hmark.1, hmark.1, hmark.2, if_true, if_false, Bool.false_eq_true]
  · exact absurd h nofun

lemma ofLine_place {space : Option Text} {number : Nat} {line : Text} {r : Rule}
    (h : Rule.ofLine space number line = .ok r) : r.space = space ∧ r.line = number := by
  rw [Rule.ofLine] at h
  split at h
  · exact absurd h nofun
  · split at h
    · exact absurd h nofun
    · obtain rfl := Except.ok.inj h
      exact ⟨rfl, rfl⟩

lemma of_spec (required : Bool) (space : Option Text) (number : Nat) (line : Text) :
    match of required space number line with
    | .blank => Text.allBlank line = true
    | .opens name => Rule.opened? line = some name
    | .rule r => Rule.opened? line = none ∧ r.space = space ∧ r.line = number
    | .malformed _ => Rule.opened? line = none := by
  by_cases hblank : Text.allBlank line = true
  · rw [of_blank hblank]
    exact hblank
  by_cases hmark : Rule.sectionMark.isPrefixOf line = true
  · by_cases hname : Text.trim (line.drop Rule.sectionMark.length) = []
    · simp [of, Rule.opened?, hblank, hmark, hname]
    · simp [of, Rule.opened?, hblank, hmark, hname]
  have hopened : Rule.opened? line = none := by simp [Rule.opened?, hmark]
  simp only [of, hblank, hmark, Bool.false_eq_true, if_false]
  by_cases hrequired : (required && space.isNone) = true
  · simp [hrequired, hopened]
  · simp only [hrequired, Bool.false_eq_true, if_false]
    cases h : Rule.ofLine space number line with
    | ok r => exact ⟨hopened, ofLine_place h⟩
    | error flaw => exact hopened

def sectionAfter (space : Option Text) : LineReading → Option Text
  | .opens name => some name
  | _ => space

lemma sectionAfter_of (required : Bool) (space : Option Text) (number : Nat) (line : Text) :
    (of required space number line).sectionAfter space = (Rule.opened? line).or space := by
  have hspec := of_spec required space number line
  cases h : of required space number line with
  | blank =>
    rw [h] at hspec
    rw [opened_of_allBlank hspec]
    rfl
  | opens name =>
    rw [h] at hspec
    rw [show Rule.opened? line = some name from hspec]
    rfl
  | rule r =>
    rw [h] at hspec
    rw [hspec.1]
    rfl
  | malformed flaw =>
    rw [h] at hspec
    rw [show Rule.opened? line = none from hspec]
    rfl

def items (number : Nat) (line : Text) : LineReading → List Reader.Item
  | .rule r => [.ok r]
  | .malformed flaw => [.error (.badLine number flaw line)]
  | _ => []

end LineReading

namespace Reader

lemma items_eq (r : Reader) :
    r.items = match r.next with
      | (none, _) => []
      | (some item, r') => item :: r'.items := by
  rw [items]
  split <;> simp_all

lemma items_nil (path : Option Path) (required : Bool) (space : Option Text) (number : Nat) :
    items ⟨path, required, [], space, number⟩ = [] := by
  rw [items_eq]
  rfl

lemma items_cons (path : Option Path) (required : Bool) (line : Text)
    (rest : List (Except IoCause Text)) (space : Option Text) (number : Nat) :
    items ⟨path, required, .ok line :: rest, space, number⟩ =
      (LineReading.of required space (number + 1) line).items (number + 1) line ++
        items ⟨path, required, rest, (LineReading.of required space (number + 1) line).sectionAfter space,
          number + 1⟩ := by
  rw [items_eq, next, nextFrom]
  cases LineReading.of required space (number + 1) line with
  | blank => exact (items_eq ⟨path, required, rest, space, number + 1⟩).symm
  | opens name => exact (items_eq ⟨path, required, rest, some name, number + 1⟩).symm
  | rule r => rfl
  | malformed flaw => rfl

/-- What the line at index `i` of some lines gives, when `space` is in force before them and `number`
lines were read. -/
def itemsAt (required : Bool) (space : Option Text) (number : Nat) (lines : List Text) (i : Nat) :
    List Item :=
  match lines[i]? with
  | none => []
  | some line => (LineReading.of required (Rule.sectionFrom space (lines.take i)) (number + i + 1)
      line).items (number + i + 1) line

lemma itemsAt_succ (required : Bool) (space : Option Text) (number : Nat) (line : Text)
    (lines : List Text) (i : Nat) :
    itemsAt required space number (line :: lines) (i + 1) =
      itemsAt required ((Rule.opened? line).or space) (number + 1) lines i := by
  have hnumber : number + (i + 1) + 1 = number + 1 + i + 1 := by omega
  rw [itemsAt, itemsAt, List.getElem?_cons_succ, List.take_succ_cons, Rule.sectionFrom_cons, hnumber]

def number? : Item → Option Nat
  | .ok rule => some rule.line
  | .error fault => fault.line?

lemma mem_items_line {item : Item} {required : Bool} {space : Option Text} {number : Nat} {line : Text}
    (h : item ∈ (LineReading.of required space number line).items number line) :
    number? item = some number ∧ ∀ r, item = .ok r → r.space = space := by
  have hspec := LineReading.of_spec required space number line
  cases hof : LineReading.of required space number line with
  | blank =>
    rw [hof] at h
    exact absurd h List.not_mem_nil
  | opens name =>
    rw [hof] at h
    exact absurd h List.not_mem_nil
  | rule r =>
    rw [hof] at h hspec
    obtain rfl := List.mem_singleton.1 h
    exact ⟨congrArg some hspec.2.2, fun s hs => Except.ok.inj hs ▸ hspec.2.1⟩
  | malformed flaw =>
    rw [hof] at h
    obtain rfl := List.mem_singleton.1 h
    exact ⟨rfl, nofun⟩

lemma mem_itemsAt {item : Item} {required : Bool} {space : Option Text} {number : Nat}
    {lines : List Text} {i : Nat} (h : item ∈ itemsAt required space number lines i) :
    i < lines.length ∧ number? item = some (number + i + 1) ∧
      ∀ r, item = .ok r → r.space = Rule.sectionFrom space (lines.take i) := by
  rw [itemsAt] at h
  cases hline : lines[i]? with
  | none =>
    rw [hline] at h
    exact absurd h List.not_mem_nil
  | some line =>
    rw [hline] at h
    exact ⟨(List.getElem?_eq_some_iff.1 hline).1, mem_items_line h⟩

lemma length_itemsAt_le (required : Bool) (space : Option Text) (number : Nat) (lines : List Text)
    (i : Nat) : (itemsAt required space number lines i).length ≤ 1 := by
  rw [itemsAt]
  cases lines[i]? with
  | none => exact Nat.zero_le 1
  | some line =>
    simp only
    cases LineReading.of required (Rule.sectionFrom space (lines.take i)) (number + i + 1) line <;>
      simp [LineReading.items]

lemma items_append (path : Option Path) (required : Bool) (space : Option Text) (number : Nat)
    (lines : List Text) (rest : List (Except IoCause Text)) :
    items ⟨path, required, lines.map .ok ++ rest, space, number⟩ =
      (List.range lines.length).flatMap (itemsAt required space number lines) ++
        items ⟨path, required, rest, Rule.sectionFrom space lines, number + lines.length⟩ := by
  induction lines generalizing space number with
  | nil => rfl
  | cons line lines ih =>
    have hnumber : number + 1 + lines.length = number + (lines.length + 1) := by omega
    rw [List.map_cons, List.cons_append, items_cons, ih, LineReading.sectionAfter_of, List.length_cons,
      List.range_succ_eq_map, List.flatMap_cons, List.flatMap_map, Rule.sectionFrom_cons, hnumber,
      List.append_assoc]
    simp only [itemsAt_succ]
    rfl

lemma items_lines (path : Option Path) (required : Bool) (space : Option Text) (number : Nat)
    (lines : List Text) :
    items ⟨path, required, lines.map .ok, space, number⟩ =
      (List.range lines.length).flatMap (itemsAt required space number lines) := by
  have h := items_append path required space number lines []
  rwa [items_nil, List.append_nil, List.append_nil] at h

end Reader

end LexRules
