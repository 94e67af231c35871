import ScriptHost.Proofs.Decoding
import ScriptHost.Proofs.Report
/-! Scripts in files. A file is run as the text that its bytes spell, and bytes that spell no text are run as they
are. A file that cannot be read is not run. -/
namespace ScriptHost.Host
open Text (Bytes)
variable {h : Host} {path : String} {bytes : Bytes}

theorem answer_file (hf : h.files path = .ok bytes) :
    h.answer (.run (.file path)) = h.carryOut (Reply.truth <$> runChunk false bytes (Text.decodeLossy bytes)) := by
  simp [answer, perform, runFor, runScriptFile, hf]

private theorem answer_file_text {text : String} (hf : h.files path = .ok text.toUTF8) :
    h.answer (.run (.file path)) = h.answer (.run (.script text)) := by
  rw [answer_file hf, Text.decodeLossy_toUTF8]
  simp [answer, perform, runFor, runScript]

/-- What is done about a verdict shows the text of the chunk in the log and in reports only. -/
theorem settle_shown (h : Host) (verdict : Verdict) (text text' : String) :
    (h.settle false text verdict).1 = (h.settle false text' verdict).1 ∧
      ∃ log reports, (h.settle false text verdict).2 = { (h.settle false text' verdict).2 with log, reports } := by
  cases verdict with
  | error phase e =>
    simp only [settle]
    split <;> exact ⟨rfl, _, _, rfl⟩
  | panic payload | results values => exact ⟨rfl, _, _, rfl⟩

theorem runChunk_shown (h : Host) (source : Bytes) (text text' : String) :
    (h.carryOut (runChunk false source text)).1 = (h.carryOut (runChunk false source text')).1 ∧
      ∃ log reports, (h.carryOut (runChunk false source text)).2 =
        { (h.carryOut (runChunk false source text')).2 with log, reports } := by
  cases hi : h.interpreter with
  | none =>
    simp only [runChunk, load, carryOut_bind, carryOut_get, carryOut_current_none h hi]
    exact ⟨trivial, _, _, rfl⟩
  | some i =>
    rw [carryOut_runChunk hi, carryOut_runChunk hi]
    exact settle_shown ..

/-- A file is run as these bytes. -/
structure RunsBytes (h : Host) (path : String) (bytes : Bytes) : Prop where
  /-- The interpreter is given the bytes as they are. -/
  verdict : h.verdict? (.file path) = h.interpreter.map fun i => (h.judge i bytes).1
  /-- Whatever text is shown for the bytes, the same comes of them but for the log and the reports. -/
  shown : ∀ text, (h.answer (.run (.file path))).1 = Reply.truth <$> (h.carryOut (runChunk false bytes text)).1 ∧
    ∃ log reports, (h.answer (.run (.file path))).2 =
      { (h.carryOut (runChunk false bytes text)).2 with log, reports }
  /-- What a report shows is the lossy text of the bytes. -/
  reports : ∀ phase e, h.verdict? (.file path) = some (.error phase e) → e.rootCause ≠ .spentPanic →
    h.Reports (.file path) [⟨"Lua runtime error " ++ phase.word ++ " \"" ++ Text.decodeLossy bytes ++ "\": " ++
      e.message, h.config.errorTag⟩]

private theorem chunk?_file (hf : h.files path = .ok bytes) :
    h.chunk? (.file path) = some (bytes, Text.decodeLossy bytes) := by
  simp only [chunk?, hf]

theorem runsBytes (hf : h.files path = .ok bytes) : h.RunsBytes path bytes where
  verdict := by
    rw [verdict?, chunk?_file hf]
    cases h.interpreter <;> rfl
  shown text := by
    obtain ⟨houtcome, log, reports, hhost⟩ := h.runChunk_shown bytes (Text.decodeLossy bytes) text
    have ha := answer_file hf
    rw [carryOut_map] at ha
    rcases hr : h.carryOut (runChunk false bytes (Text.decodeLossy bytes)) with ⟨e | a, h'⟩ <;>
      rw [hr] at ha houtcome hhost <;> rw [ha, ← houtcome] <;> exact ⟨rfl, log, reports, hhost⟩
  reports phase e hv he := by
    have hreport := (answer_run_error hv he).2
    rwa [display, chunk?_file hf] at hreport

/-- To run a file is to run the text that its bytes spell: all is the same afterwards. If they spell none, the
interpreter is given the bytes all the same, and only a report shows another text in their place. A file that
cannot be read leaves nothing but a note in the log. -/
theorem file_agrees_with_text (h : Host) (path : String) :
    match h.files path with
    | .ok bytes =>
      (∀ text, bytes = text.toUTF8 → h.answer (.run (.file path)) = h.answer (.run (.script text))) ∧
        h.RunsBytes path bytes
    | .error e =>
      h.answer (.run (.file path)) = (.ok (.truth false), { h with log := unread path e :: h.log }) := by
  split
  · next bytes hf =>
    refine ⟨?_, runsBytes hf⟩
    rintro text rfl
    exact answer_file_text hf
  · next e hf => exact answer_unread hf

/-- A byte of another encoding reaches the interpreter as one byte. In the text that is shown for it there are three. -/
example :
    let bytes := "assert(#'".toUTF8 ++ ⟨#[0xE9]⟩ ++ "' == 1)".toUTF8
    let h := { Host.offering [] with files := fun _ => .ok bytes }
    ((h.answer (.run (.file "latin1.lua"))).1 matches .ok (.truth true)) ∧
      ((h.answer (.run (.script (Text.decodeLossy bytes)))).1 matches .ok (.truth false)) := by
  decide +kernel

end ScriptHost.Host
