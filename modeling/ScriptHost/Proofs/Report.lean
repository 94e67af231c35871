import ScriptHost.Proofs.Request
/-! Reports about the errors of chunks: one for each error that is not fatal, and none for anything else. -/
namespace ScriptHost

/-- What an error comes down to without the calls and the contexts around it. -/
def Lua.ScriptError.rootCause : ScriptError → ScriptError
  | .callback _ cause => cause.rootCause
  | .context _ cause => cause.rootCause
  | e => e

theorem Lua.ScriptError.isFatal_iff (e : ScriptError) : e.isFatal ↔ e.rootCause = .spentPanic := by
  induction e with
  | callback _ _ ih => exact ih
  | context _ _ ih => exact ih
  | _ => simp [isFatal, rootCause]

namespace Host

/-- An answer to a run makes just these reports. The log gets them and at most notes, which have no tag, on top
of what the chunk itself wrote there. -/
structure Reports (h : Host) (r : Run) (reports : List Diagnostic) : Prop where
  kept : (h.answer (.run r)).2.reports = reports.flatMap h.sink.kept ++ h.reports
  logged : ∃ notes, (∀ note ∈ notes, note.fields = []) ∧
    (h.answer (.run r)).2.log = notes ++ reports.map h.sink.event ++ (h.judged r).log

variable {h : Host} {r : Run}

private theorem Reports.of_noted {outcome : Except Interruption Reply} {event : LogEvent}
    (he : event.fields = []) (ha : h.answer (.run r) = (outcome, (h.judged r).noted event)) :
    h.Reports r [] := by
  obtain ⟨interpreter, log, hj, -⟩ := h.judged_frame r
  refine ⟨?_, [event], by simpa using he, ?_⟩ <;> rw [ha]
  · rw [hj]
    rfl
  · rfl

private theorem Reports.of_reporting {outcome : Except Interruption Reply} {d : Diagnostic}
    (ha : h.answer (.run r) = (outcome, (h.judged r).reporting d)) : h.Reports r [d] := by
  obtain ⟨interpreter, log, hj, -⟩ := h.judged_frame r
  refine ⟨?_, [], by simp, ?_⟩ <;> rw [ha]
  · rw [hj]
    simp [reporting]
  · simp [reporting, hj]

theorem Reports.of_results {values : List Lua.HostValue} (hv : h.verdict? r = some (.results values)) :
    h.Reports r [] := by
  obtain ⟨interpreter, log, hj, -⟩ := h.judged_frame r
  obtain ⟨stack, notes, hn, hc⟩ := (h.judged r).conclude_results r (h.display r) values
  refine ⟨?_, notes, hn, ?_⟩ <;> rw [answer_run hv, hc]
  · rw [hj]
    rfl
  · simp

private theorem Reports.of_none (hv : h.verdict? r = none) : h.Reports r [] := by
  have hj := judged_of_none hv
  obtain ha | ⟨event, he, ha⟩ := answer_run_none hv
  · exact ⟨by rw [ha]; rfl, [], by simp, by rw [ha, hj]; rfl⟩
  · exact .of_noted he (by rw [hj]; exact ha)

/-- A fatal error is returned and not reported. -/
theorem answer_run_fatal {phase : Phase} {e : Lua.ScriptError} (hv : h.verdict? r = some (.error phase e))
    (he : e.rootCause = .spentPanic) :
    (h.answer (.run r)).1 = .error (.failed (.fatal e.message)) ∧ h.Reports r [] := by
  have ha := answer_run hv
  rw [conclude, if_pos (e.isFatal_iff.mpr he)] at ha
  exact ⟨by rw [ha], .of_noted rfl ha⟩

/-- An error that is not fatal is reported and not returned. -/
theorem answer_run_error {phase : Phase} {e : Lua.ScriptError} (hv : h.verdict? r = some (.error phase e))
    (he : e.rootCause ≠ .spentPanic) :
    (h.answer (.run r)).1 = .ok r.failure ∧ h.Reports r [h.complaint phase (h.display r) e] := by
  obtain ⟨interpreter, log, hj, -⟩ := h.judged_frame r
  have hd : (h.judged r).complaint = h.complaint := by rw [hj]; rfl
  have ha := answer_run hv
  rw [conclude, if_neg (mt e.isFatal_iff.mp he), hd] at ha
  exact ⟨by rw [ha], .of_reporting ha⟩

/-- A panic is returned and not reported. -/
theorem answer_run_panic {payload : Lua.PanicPayload} (hv : h.verdict? r = some (.panic payload)) :
    (h.answer (.run r)).1 = .error (.failed (.panic payload.report)) ∧ h.Reports r [] := by
  have ha := answer_run hv
  exact ⟨by rw [ha]; rfl, .of_noted rfl ha⟩

variable (h)

/-- The report that a request makes. -/
def complaint? : Request → Option Diagnostic
  | .run r =>
    match h.verdict? r with
    | some (.error phase e) =>
      if e.rootCause = .spentPanic then none else some (h.complaint phase (h.display r) e)
    | _ => none
  | _ => none

/-- The reports that requests make, in their order. -/
def complaints : Host → List Request → List Diagnostic
  | _, [] => []
  | h, request :: rest => (h.complaint? request).toList ++ complaints (h.answer request).2 rest

private theorem reports_complaint? (r : Run) : h.Reports r (h.complaint? (.run r)).toList := by
  simp only [complaint?]
  cases hv : h.verdict? r with
  | none => exact .of_none hv
  | some verdict =>
    cases verdict with
    | error phase e =>
      by_cases he : e.rootCause = .spentPanic
      · simp only [if_pos he]
        exact (answer_run_fatal hv he).2
      · simp only [if_neg he]
        exact (answer_run_error hv he).2
    | panic payload => exact (answer_run_panic hv).2
    | results values => exact .of_results hv

private theorem reports_answer (request : Request) :
    (h.answer request).2.reports =
      (h.complaint? request).toList.flatMap h.sink.kept ++ h.reports := by
  cases request with
  | run r => exact (h.reports_complaint? r).kept
  | _ => exact h.reports_answer_other (by simp)

/-- The reports after some requests are the earlier ones and those of the requests, the latest first. -/
theorem reports_after (requests : List Request) :
    (h.after requests).reports =
      (h.complaints requests).reverse.flatMap h.sink.kept ++ h.reports := by
  induction requests generalizing h with
  | nil => rfl
  | cons request rest ih =>
    rw [after, ih, complaints, (h.keeps_answer request).sink, h.reports_answer request]
    cases h.complaint? request <;> simp

end Host
end ScriptHost
