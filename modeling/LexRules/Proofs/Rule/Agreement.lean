import LexRules.Proofs.Rule.Accounting
import LexRules.Proofs.Text.Utf8
import LexRules.Rule.File

/-! The ways to read the rules of a file agree. They differ only in what they make of the items of one
reader, and the items come in the order of the lines. -/

namespace LexRules

namespace Reader

structure InOrder (items : List Item) : Prop where
  numbered : ∀ item ∈ items, ∃ n, number? item = some n
  increasing : (items.filterMap number?).Pairwise (· < ·)

variable {items : List Item} {item : Item}

lemma InOrder.tail (h : InOrder (item :: items)) : InOrder items := by
  obtain ⟨n, hn⟩ := h.numbered item List.mem_cons_self
  have hincreasing := h.increasing
  rw [List.filterMap_cons, hn] at hincreasing
  exact ⟨fun other hother => h.numbered other (List.mem_cons_of_mem item hother),
    (List.pairwise_cons.1 hincreasing).2⟩

lemma InOrder.lt {other : Item} {m n : Nat} (h : InOrder (item :: items)) (hitem : number? item = some m)
    (hmem : other ∈ items) (hother : number? other = some n) : m < n := by
  have hincreasing := h.increasing
  rw [List.filterMap_cons, hitem] at hincreasing
  exact (List.pairwise_cons.1 hincreasing).1 n (List.mem_filterMap.2 ⟨other, hmem, hother⟩)

lemma inOrder_items (required : Bool) (content : Text) : InOrder (ofText required content).items := by
  rw [ofText, ofLines, items_lines]
  constructor
  · intro item hitem
    obtain ⟨i, -, hmem⟩ := List.mem_flatMap.1 hitem
    exact ⟨_, (mem_itemsAt hmem).2.1⟩
  · apply Rule.pairwise_flatMap_range
    · intro i item hitem
      rw [(mem_itemsAt hitem).2.1, Nat.zero_add]
    · exact length_itemsAt_le required none 0 _

lemma items_ofBytes {bytes : Text.Bytes} {content : Text} (h : Text.decodeUtf8 bytes = some content)
    (path : Option Path) (required : Bool) :
    (ofLines path required (linesOf bytes)).items = (ofText required content).items := by
  have hlines : linesOf bytes = (Text.lines content).map .ok := by
    simp [linesOf, Text.byteLines_of_decode h]
  rw [hlines, ofText, ofLines, ofLines, items_lines, items_lines]

end Reader

namespace Rule

lemma collect_eq (items : List Reader.Item) :
    collect items = match (separate items).2 with
      | [] => .ok (separate items).1
      | fault :: _ => .error fault := by
  induction items with
  | nil => rfl
  | cons item items ih =>
    cases item with
    | error fault => rfl
    | ok rule =>
      rw [collect, ih, separate_cons_ok]
      cases (separate items).2 <;> rfl

lemma parse_eq_ok_iff {required : Bool} {content : Text} {rules : List Rule} :
    parse required content = .ok rules ↔
      (diagnose required content).2 = [] ∧ (diagnose required content).1 = rules := by
  rw [parse, collect_eq, diagnose]
  cases (separate (Reader.ofText required content).items).2 <;> simp

lemma untilFault_fault (items : List Reader.Item) :
    (untilFault items).2 = (separate items).2.head? := by
  induction items with
  | nil => rfl
  | cons item items ih =>
    cases item with
    | error fault => rfl
    | ok rule => rw [separate_cons_ok, untilFault, ih]

lemma untilFault_rules_prefix (items : List Reader.Item) :
    (untilFault items).1 <+: (separate items).1 := by
  induction items with
  | nil => exact List.prefix_refl []
  | cons item items ih =>
    cases item with
    | error fault => exact List.nil_prefix
    | ok rule =>
      rw [separate_cons_ok, untilFault]
      exact (List.prefix_cons_inj rule).2 ih

lemma untilFault_rules_of_sound {items : List Reader.Item} (h : (separate items).2 = []) :
    (untilFault items).1 = (separate items).1 := by
  have hall := untilFault_append h []
  rw [List.append_nil] at hall
  rw [hall, untilFault, List.append_nil]

lemma untilFault_rules_above {items : List Reader.Item} (horder : Reader.InOrder items) {fault : Fault}
    {more : List Fault} (h : (separate items).2 = fault :: more) {n : Nat} (hn : fault.line? = some n) :
    (untilFault items).1 = (separate items).1.filter fun rule => rule.line < n := by
  induction items with
  | nil => exact absurd h nofun
  | cons item items ih =>
    cases item with
    | error other =>
      obtain ⟨rfl, -⟩ := List.cons.inj h
      symm
      apply List.filter_eq_nil_iff.2
      intro rule hrule
      have hlt := horder.lt (m := n) hn (mem_rules_iff.1 hrule) rfl
      simp
      omega
    | ok rule =>
      have hmem : .error fault ∈ items := mem_faults_iff.1 (h ▸ List.mem_cons_self)
      have hlt : rule.line < n := horder.lt rfl hmem hn
      rw [untilFault, separate_cons_ok, ih horder.tail h]
      simp [hlt]

structure Agreement (tree : FileTree) (path : Path) (required : Bool) (content : Text) : Prop where
  fault_of_line : ∀ fault ∈ (diagnose required content).2,
    ∃ number flaw line, fault = .badLine number flaw line
  without_fault : (diagnose required content).2 = [] →
    parse required content = .ok (diagnose required content).1 ∧
    ofFile tree required path = .ok (diagnose required content).1 ∧
    (RuleFile.read tree required path).rules = (diagnose required content).1 ∧
    (RuleFile.read tree required path).fault = none
  first_fault : ∀ fault more, (diagnose required content).2 = fault :: more →
    parse required content = .error fault ∧
    ofFile tree required path = .error fault ∧
    (RuleFile.read tree required path).fault = some fault ∧
    (RuleFile.read tree required path).rules <+: (diagnose required content).1 ∧
    ∃ n, fault.line? = some n ∧ (RuleFile.read tree required path).rules =
      (diagnose required content).1.filter fun rule => rule.line < n

lemma read_of_open {tree : FileTree} {path : Path} {bytes : Text.Bytes} {content : Text}
    (hopen : tree.openPath path = .ok (.file bytes)) (hutf8 : Text.decodeUtf8 bytes = some content)
    (required : Bool) :
    ofFile tree required path = collect (Reader.ofText required content).items ∧
      (RuleFile.read tree required path).rules = (untilFault (Reader.ofText required content).items).1 ∧
      (RuleFile.read tree required path).fault = (untilFault (Reader.ofText required content).items).2 := by
  have hfile : Reader.openFile tree required path =
      .ok (.ofLines (some path) required (Reader.linesOf bytes)) := by
    rw [Reader.openFile, hopen]
    rfl
  simp only [ofFile, RuleFile.read, hfile, Reader.items_ofBytes hutf8, and_self]

theorem readings_agree {tree : FileTree} {path : Path} {bytes : Text.Bytes} {content : Text}
    (required : Bool) (hopen : tree.openPath path = .ok (.file bytes))
    (hutf8 : Text.decodeUtf8 bytes = some content) : Agreement tree path required content := by
  obtain ⟨hfile, hrules, hfault⟩ := read_of_open hopen hutf8 required
  have horder := Reader.inOrder_items required content
  have hnumber : ∀ fault ∈ (diagnose required content).2, ∃ n, fault.line? = some n :=
    fun fault hmem => horder.numbered _ (mem_faults_iff.1 hmem)
  constructor
  case fault_of_line =>
    intro fault hmem
    obtain ⟨n, hn⟩ := hnumber fault hmem
    cases fault with
    | badLine number flaw line => exact ⟨number, flaw, line, rfl⟩
    | _ => exact absurd hn nofun
  case without_fault =>
    intro hnone
    have hcollect : collect (Reader.ofText required content).items =
        .ok (diagnose required content).1 := by
      rw [collect_eq]
      simp only [diagnose] at hnone ⊢
      rw [hnone]
    refine ⟨hcollect, hfile.trans hcollect, ?_, ?_⟩
    · rw [hrules, untilFault_rules_of_sound hnone]
      rfl
    · rw [hfault, untilFault_fault]
      exact congrArg List.head? hnone
  case first_fault =>
    intro fault more hfirst
    have hcollect : collect (Reader.ofText required content).items = .error fault := by
      rw [collect_eq]
      simp only [diagnose] at hfirst ⊢
      rw [hfirst]
    obtain ⟨n, hn⟩ := hnumber fault (hfirst ▸ List.mem_cons_self)
    refine ⟨hcollect, hfile.trans hcollect, ?_, ?_, n, hn, ?_⟩
    · rw [hfault, untilFault_fault]
      exact congrArg List.head? hfirst
    · rw [hrules]
      exact untilFault_rules_prefix _
    · rw [hrules]
      exact untilFault_rules_above horder hfirst hn

def accented : Text.Bytes :=
  [0x31, 0x2F, 0xC3, 0xA9, 0x2F, 0x78, 0x0A, 0x62, 0x61, 0x64, 0x0D, 0x0A, 0x32, 0x2F, 0x62, 0x2F, 0x79]

def shelf : FileTree := ⟨#[.directory 0 [(Path.of "a", 1)] .full, .file accented false], 0, 40⟩

theorem readings_agree_accented : shelf.openPath (Path.of "/a") = .ok (.file accented) ∧
    Text.decodeUtf8 accented = some "1/é/x\nbad\r\n2/b/y".toList ∧
    (diagnose false "1/é/x\nbad\r\n2/b/y".toList).2 = [.badLine 2 .openPriority "bad".toList] ∧
    Agreement shelf (Path.of "/a") false "1/é/x\nbad\r\n2/b/y".toList := by
  have hopen : shelf.openPath (Path.of "/a") = .ok (.file accented) := rfl
  have hutf8 : Text.decodeUtf8 accented = some "1/é/x\nbad\r\n2/b/y".toList := by decide
  refine ⟨hopen, hutf8, ?_, readings_agree false hopen hutf8⟩
  rw [diagnose_eq]
  cbv

end Rule

end LexRules
