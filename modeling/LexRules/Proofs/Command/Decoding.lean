import LexRules.Proofs.Command.Status
import LexRules.Proofs.Token.Stream

/-! Token lines that are written one after another and read back from standard input. -/

namespace LexRules

namespace Report

def bindingLines (c : Context) (l : List Binding) : OutputFormat → List Text
  | .json => [Text.jsonArray (l.map Binding.json)]
  | .text => l.map (bindingLine c)

lemma decode_stdin (c : Context) (stdin : Text.Bytes) (format : OutputFormat) :
    decode c none stdin format =
      ⟨bindingLines c (Token.bindings (Token.outcomes 1 (Token.streamLines stdin))) format,
        (Token.failures (Token.outcomes 1 (Token.streamLines stdin))).map (failureLine c),
        (Token.failures (Token.outcomes 1 (Token.streamLines stdin))).isEmpty, []⟩ := by
  cases format <;> rfl

end Report

namespace Outcome

structure Restores (outcome : Outcome) (c : Context) (stdin : Text.Bytes) (format : OutputFormat)
    (l : List Binding) : Prop where
  results : Token.Restores l (Token.outcomes 1 (Token.streamLines stdin))
  code : outcome.code = 0
  stderr : outcome.stderr = []
  stdout : outcome.stdout = Environment.printed (Report.bindingLines c
    (Token.bindings (Token.outcomes 1 (Token.streamLines stdin))) format)

end Outcome

namespace Environment

variable {e : Environment} {i : Invocation} {format : OutputFormat} {l : List Binding}

theorem decode_restores_iff (hargs : Arguments.read e.args = .ok i)
    (hcommand : i.command = some (.decode none format)) (hmade : ∀ b ∈ l, b.Made)
    (hstdin : e.stdin = Text.encodeUtf8 (l.flatMap Binding.encode)) :
    e.run.Restores (e.context i) e.stdin format l ↔ ∀ b ∈ l, b.value.OneLine := by
  have hrestores : Token.Restores l (Token.outcomes 1 (Token.streamLines e.stdin)) ↔
      ∀ b ∈ l, b.value.OneLine := by
    rw [hstdin, Token.streamLines_of_decode (Text.decodeUtf8_encodeUtf8 _)]
    exact Token.restores_iff l (fun b hb => (hmade b hb).lined) 1
  have hrun := run_of_report hargs hcommand
    (congrArg Except.ok (Report.decode_stdin (e.context i) e.stdin format))
  refine ⟨fun h => hrestores.1 h.results, fun h => ?_⟩
  have hresults := hrestores.2 h
  refine ⟨hresults, ?_, ?_, ?_⟩ <;> rw [hrun]
  · simp only [hresults.2]
    rfl
  · simp only [hresults.2]
    rfl

def piped (l : List Binding) : Environment :=
  ⟨["decode".toList], ⟨#[], 0, 40⟩, (Path.of "/"), Text.encodeUtf8 (l.flatMap Binding.encode), false, none⟩

/-- A text that holds a whole token line, in a binding that is written with a second one in it. -/
def forged : Binding := ⟨['a'], Token.defaultSpace, .text "1\nLexTok#b##dtLong#2".toList⟩

def kept : List Binding := [⟨['a'], ['s'], .text "1\r2".toList⟩, ⟨['b'], [], .null⟩]

theorem decode_restores_iff_forged : ∃ i, Arguments.read (piped []).args = .ok i ∧
    i.command = some (.decode none .text) ∧ forged.Made ∧ (∀ b ∈ kept, b.Made) ∧
    ¬ (piped [forged]).run.Restores ((piped [forged]).context i) (piped [forged]).stdin .text [forged] ∧
    (piped kept).run.Restores ((piped kept).context i) (piped kept).stdin .text kept := by
  have hargs (l : List Binding) : Arguments.read (piped l).args =
      .ok ⟨some (.decode none .text), none, false, false⟩ := rfl
  have hforged : forged.Made := .makeDefault (show Binding.makeDefault ['a'] _ = .ok forged from rfl)
  have hkept : ∀ b ∈ kept, b.Made := by
    have hset : Binding.Made ⟨['a'], ['s'], .null⟩ :=
      .make (show Binding.make ['a'] ['s'] .null = .ok _ from rfl)
    have hnull : Binding.Made ⟨['b'], [], .null⟩ :=
      .make (show Binding.make ['b'] [] .null = .ok _ from rfl)
    rw [kept, List.forall_mem_cons, List.forall_mem_singleton]
    exact ⟨hset.setValue (.text "1\r2".toList), hnull⟩
  refine ⟨_, hargs [], rfl, hforged, hkept, ?_, ?_⟩
  · intro h
    have hline := (decode_restores_iff (hargs [forged]) rfl (List.forall_mem_singleton.2 hforged)
      rfl).1 h forged (List.mem_singleton_self _)
    exact hline.1 (by decide)
  · refine (decode_restores_iff (hargs kept) rfl hkept rfl).2 ?_
    rw [kept, List.forall_mem_cons, List.forall_mem_singleton]
    exact ⟨⟨by decide, by decide⟩, trivial⟩

end Environment

end LexRules
