import ScriptHost.Proofs.Report
/-! The text that reports quote. For an expression it is the one that the interpreter was given after `return`,
which preparing may have made another text than the one that was asked about. -/
namespace ScriptHost

/-- The expression that is to be evaluated. -/
def Run.expression? : Run → Option String
  | .expression asked | .truth asked | .number asked | .text asked => some asked
  | .script _ | .file _ => none

/-- The error of a verdict, with its phase. -/
def Verdict.error? : Verdict → Option (Phase × Lua.ScriptError)
  | .error phase e => some (phase, e)
  | _ => none

namespace Host
variable {h : Host} {r : Run} {phase : Phase} {e : Lua.ScriptError}

theorem verdict?_of_error? (he : (h.verdict? r).bind (·.error?) = some (phase, e)) :
    h.verdict? r = some (.error phase e) := by
  obtain ⟨verdict, hv, herror⟩ := Option.bind_eq_some_iff.mp he
  cases verdict with
  | error phase' e' =>
    cases herror
    exact hv
  | _ => cases herror

private theorem event_injective (sink : DiagnosticSink) {d d' : Diagnostic}
    (he : sink.event d = sink.event d') : d = d' := by
  obtain ⟨message, tag⟩ := d
  obtain ⟨message', tag'⟩ := d'
  cases sink <;> simpa [DiagnosticSink.event] using he

/-- No two reports can both be the only one: the log tells them apart even where none are kept. -/
theorem Reports.unique {d d' : Diagnostic} (hd : h.Reports r [d]) (hd' : h.Reports r [d']) : d = d' := by
  obtain ⟨notes, -, hl⟩ := hd.logged
  obtain ⟨notes', -, hl'⟩ := hd'.logged
  have happend := List.append_cancel_right (hl.symm.trans hl')
  have hevents : [h.sink.event d] = [h.sink.event d'] := List.append_inj_right' happend rfl
  exact event_injective h.sink (List.singleton_inj.mp hevents)

/-- A report that quotes a text. -/
def quoting (h : Host) (phase : Phase) (quoted : String) (e : Lua.ScriptError) : Diagnostic :=
  ⟨"Lua runtime error " ++ phase.word ++ " \"" ++ quoted ++ "\": " ++ e.message, h.config.errorTag⟩

theorem quoting_injective {s t : String} (hq : h.quoting phase s e = h.quoting phase t e) : s = t := by
  have hmessage := (Diagnostic.mk.inj hq).1
  have hquote := (String.append_left_inj _).mp hmessage
  have htext := (String.append_left_inj _).mp hquote
  exact (String.append_right_inj _).mp htext

theorem display_expression {t : String} (ht : r.expression? = some t) : h.display r = h.prepared t := by
  cases r with
  | script _ | file _ => cases ht
  | _ =>
    cases ht
    rfl

/-- A recoverable error of an expression is reported with the prepared text. -/
theorem reports_prepared {t : String} (ht : r.expression? = some t)
    (hv : h.verdict? r = some (.error phase e)) (he : e.rootCause ≠ .spentPanic) :
    h.Reports r [h.quoting phase (h.prepared t) e] := by
  have hreports := (answer_run_error hv he).2
  rw [display_expression ht] at hreports
  exact hreports

/-- A recoverable error of an expression makes one report, and the report quotes the prepared text. So it quotes the
text that was asked about exactly when preparing leaves that text as it is. -/
theorem report_quotes_asked_iff {t : String} (ht : r.expression? = some t)
    (hv : h.verdict? r = some (.error phase e)) (he : e.rootCause ≠ .spentPanic) :
    h.Reports r [h.quoting phase (h.prepared t) e] ∧
      (h.Reports r [h.quoting phase t e] ↔ h.prepared t = t) := by
  have hreports := reports_prepared ht hv he
  refine ⟨hreports, fun hasked => ?_, fun hsame => ?_⟩
  · exact quoting_injective (Reports.unique hreports hasked)
  · rw [hsame] at hreports
    exact hreports

/-- A host that prepares expressions. -/
def rewriting : Host :=
  (Host.start
    { config := { prepareExpressions := true }, registry := {}, files := fun _ => .error .notFound }).2

theorem reachable_rewriting : Reachable rewriting := by
  refine .started { prepareExpressions := true } {} (fun _ => .error .notFound) ⟨[]⟩ {} ?_
  exact Prod.ext (by rw [start_eq]; rfl) rfl

/-- What the interpreter says about an operand that a comment has swallowed. -/
def missingOperand : Lua.ScriptError := .malformed "[string \"in\"]:1: unexpected symbol near <eof>"

private theorem verdict?_missingOperand :
    rewriting.verdict? (.expression "1 + // two") = some (.error .parsing missingOperand) :=
  verdict?_of_error? (by decide +kernel)

theorem report_quotes_asked_iff_rewriting :
    Run.expression? (.expression "1 + // two") = some "1 + // two" ∧ missingOperand.rootCause ≠ .spentPanic ∧
      rewriting.Reports (.expression "1 + // two") [rewriting.quoting .parsing "1 + -- two" missingOperand] := by
  have hq := report_quotes_asked_iff rfl verdict?_missingOperand (by decide)
  rw [show rewriting.prepared "1 + // two" = "1 + -- two" by decide +kernel] at hq
  exact ⟨rfl, by decide, hq.1⟩

/-- The report does not quote what was asked. -/
theorem report_quotes_rewritten_text :
    Reachable rewriting ∧ rewriting.verdict? (.expression "1 + // two") = some (.error .parsing missingOperand) ∧
      ¬ rewriting.Reports (.expression "1 + // two") [rewriting.quoting .parsing "1 + // two" missingOperand] := by
  refine ⟨reachable_rewriting, verdict?_missingOperand, fun hasked => ?_⟩
  have hprepared := reports_prepared rfl verdict?_missingOperand (by decide)
  have hsame := quoting_injective (Reports.unique hprepared hasked)
  revert hsame
  decide +kernel

end Host
end ScriptHost
