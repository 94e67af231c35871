import ScriptHost.Proofs.Request
/-! The stack of a host. A run takes nothing from it and leaves at most its result there. Only two requests can fail and
take a value with them: to make a global, and to pop a number as a text. -/
namespace ScriptHost

/-- Whether a run is to leave its result on the stack. -/
def Run.leavesResult : Run → Bool
  | .expression _ => true
  | _ => false

namespace Host

private theorem accept_leaving (h : Host) {r : Run} (hr : r.leavesResult) (v : Lua.HostValue) :
    h.accept v r = h.unlessFunction v (.truth true) (h.withStack (v :: h.stack)) := by
  cases r with
  | expression text => rfl
  | _ => cases hr

private theorem stack_accept (h : Host) {r : Run} (hr : ¬ r.leavesResult) (v : Lua.HostValue) :
    (h.accept v r).2.stack = h.stack := by
  cases r with
  | script _ | file _ => rfl
  | expression _ => exact absurd rfl hr
  | _ => by_cases hf : v.isFunction <;> simp [accept, unlessFunction, hf, apply_ite stack]

/-- Only an expression that has a result other than a function puts a value on the stack. -/
theorem stack_conclude (h : Host) (r : Run) (display : String) (verdict : Verdict) :
    (∃ values, r.leavesResult ∧ (h.conclude r display verdict).1 = .ok (.truth true) ∧
        verdict = .results values ∧
        (h.conclude r display verdict).2.stack = values.headD .nil :: h.stack) ∨
      (¬ (r.leavesResult ∧ (h.conclude r display verdict).1 = .ok (.truth true)) ∧
        (h.conclude r display verdict).2.stack = h.stack) := by
  cases verdict with
  | error phase e =>
    right
    by_cases he : e.isFatal
    · simp [conclude, he]
    · cases r <;> simp [conclude, he, Run.leavesResult, Run.failure]
  | panic payload => exact .inr ⟨by simp [conclude], rfl⟩
  | results values =>
    by_cases hr : r.leavesResult
    · rw [conclude, accept_leaving h hr, unlessFunction]
      by_cases hf : (values.headD .nil).isFunction
      · rw [if_pos hf]
        exact .inr ⟨by simp, rfl⟩
      · rw [if_neg hf]
        exact .inl ⟨values, hr, rfl, rfl, rfl⟩
    · exact .inr ⟨fun hl => hr hl.1, stack_accept h hr _⟩

/-- A run leaves the stack as it was, on every way out. On top of it an expression that says so leaves its
result: the first value that its chunk gave, and nil if there was none. -/
theorem stack_answer_run (h : Host) (r : Run) :
    (∃ values, r.leavesResult ∧ (h.answer (.run r)).1 = .ok (.truth true) ∧
        h.verdict? r = some (.results values) ∧
        (h.answer (.run r)).2.stack = values.headD .nil :: h.stack) ∨
      (¬ (r.leavesResult ∧ (h.answer (.run r)).1 = .ok (.truth true)) ∧
        (h.answer (.run r)).2.stack = h.stack) := by
  cases hv : h.verdict? r with
  | none =>
    right
    obtain ha | ⟨event, -, ha⟩ := answer_run_none hv <;> rw [ha] <;> exact ⟨by simp, rfl⟩
  | some verdict =>
    obtain ⟨interpreter, log, hj, -⟩ := h.judged_frame r
    have hs : (h.judged r).stack = h.stack := by rw [hj]
    have hc := stack_conclude (h.judged r) r (h.display r) verdict
    rw [← answer_run hv, hs] at hc
    simpa only [Option.some_inj] using hc

/-- Any number of runs leave the stack below their results as it was, and no more results than there were
expressions. -/
theorem stack_after_runs (h : Host) (runs : List Run) :
    ∃ results, (h.after (runs.map .run)).stack = results ++ h.stack ∧
      results.length ≤ runs.countP (·.leavesResult) := by
  induction runs generalizing h with
  | nil => exact ⟨[], rfl, Nat.le_refl 0⟩
  | cons r rest ih =>
    obtain ⟨results, hs, hl⟩ := ih (h.answer (.run r)).2
    rw [List.map_cons, after, hs, List.countP_cons]
    obtain ⟨values, hr, -, -, ht⟩ | ⟨-, ht⟩ := stack_answer_run h r
    · exact ⟨results ++ [values.headD .nil], by simp [ht], by simp [hr, hl]⟩
    · exact ⟨results, by rw [ht], by omega⟩

section Refusing
variable {h : Host} {i : Lua.Interpreter} (refuses : Lua.Refusal)

private theorem pushString_keeps_stack (hi : h.interpreter = some i) (text : String) {e : HostError}
    (he : (h.answer (.pushString text) refuses).1 = .error (.failed e)) :
    (h.answer (.pushString text) refuses).2.stack = h.stack := by
  simp only [answer_pushString_refusing, hi] at he ⊢
  generalize refuses text.toUTF8 = refusal at he ⊢
  cases refusal with
  | none => cases he
  | some e => rfl

/-- Requests that take nothing from the stack, whether they go well or not. -/
private theorem failed_keeps_stack (hi : h.interpreter = some i) {request : Request}
    (hb : ∀ name, request ≠ .bindGlobal name) (hp : request ≠ .popString) {e : HostError}
    (he : (h.answer request refuses).1 = .error (.failed e)) : (h.answer request refuses).2.stack = h.stack := by
  cases request with
  | renew =>
    change (h.answer .renew).1 = _ at he
    rw [answer_renew] at he
    cases he
  | pushInteger _ | pushNumber _ | pushBoolean _ | pushPointer _ | peekInteger _ => cases he
  | pushString text => exact pushString_keeps_stack refuses hi text he
  | popString => exact absurd rfl hp
  | bindGlobal name => exact absurd rfl (hb name)
  | run r =>
    obtain ⟨herror, log, hlog⟩ := h.answer_run_refusing r refuses
    obtain ⟨_, -, hok, -, -⟩ | ⟨-, hs⟩ := stack_answer_run h r
    · rw [herror, hok] at he
      cases he
    · rw [hlog]
      exact hs

private theorem popString_keeps_stack_iff (hi : h.interpreter = some i) :
    ((∃ e, (h.answer .popString refuses).1 = .error (.failed e)) →
        (h.answer .popString refuses).2.stack = h.stack) ↔
      ¬ ∃ e, h.refusedText? refuses = some e := by
  rcases hs : h.stack with _ | ⟨v, rest⟩
  · simp [answer_popString_nil h hs refuses, refusedText?, hs]
  · rw [answer_popString_cons h hs refuses, refusedText?, hs]
    cases v with
    | int n =>
      simp only [textOf?, hi, Lua.HostValue.text?]
      cases (Lua.HostValue.int n).coerced?.bind refuses <;> simp
    | float x =>
      simp only [textOf?, hi, Lua.HostValue.text?]
      cases (Lua.HostValue.float x).coerced?.bind refuses <;> simp
    | _ => simp [textOf?, Lua.HostValue.text?, hs]

private theorem bindGlobal_keeps_stack_iff (hi : h.interpreter = some i) (name : String) :
    ((∃ e, (h.answer (.bindGlobal name) refuses).1 = .error (.failed e)) →
        (h.answer (.bindGlobal name) refuses).2.stack = h.stack) ↔
      ¬ ∃ e, h.assignment? name refuses = some (.error e) := by
  rcases hs : h.stack with _ | ⟨v, rest⟩
  · simp [answer_bindGlobal_nil h hs name refuses, assignment?, hs]
  · rw [answer_bindGlobal_refusing h hi hs]
    simp only [assignment?, hi, hs]
    rcases i.assign name v refuses with ⟨_ | err | payload, j⟩ <;> simp

/-- A request that fails leaves the stack of a reachable host as it was, unless the value on top of it was to
become a global and the interpreter refused, or was a number to be taken as a text and the interpreter refused to make
that. Nothing is asserted about panics that leave the request. -/
theorem failed_keeps_stack_iff (hr : Reachable h) (request : Request) :
    ((∃ e, (h.answer request refuses).1 = .error (.failed e)) → (h.answer request refuses).2.stack = h.stack) ↔
      ¬ ((∃ name e, request = .bindGlobal name ∧ h.assignment? name refuses = some (.error e)) ∨
        request = .popString ∧ ∃ e, h.refusedText? refuses = some e) := by
  obtain ⟨i, hi⟩ := Option.isSome_iff_exists.mp hr.interpreter_isSome
  by_cases hb : ∃ name, request = .bindGlobal name
  · obtain ⟨name, rfl⟩ := hb
    rw [bindGlobal_keeps_stack_iff refuses hi]
    simp
  by_cases hp : request = .popString
  · subst hp
    rw [popString_keeps_stack_iff refuses hi]
    simp
  · have hn : ∀ name, request ≠ .bindGlobal name := fun name hr => hb ⟨name, hr⟩
    constructor
    · rintro - (⟨name, e, hr, -⟩ | ⟨hr, -⟩)
      · exact hn name hr
      · exact hp hr
    · rintro - ⟨e, he⟩
      exact failed_keeps_stack refuses hi hn hp he

end Refusing

/-- A host with a value on its stack, whose globals refuse to be set. -/
def refusing : Host :=
  (offering []).after
    [.run (.script "setmetatable(_G, \x7b__newindex = function() error('no') end\x7d)"), .pushInteger 7]

theorem failed_keeps_stack_iff_refusing :
    Reachable refusing ∧
      (((∃ e, (refusing.answer (.bindGlobal "x")).1 = .error (.failed e)) →
          (refusing.answer (.bindGlobal "x")).2.stack = refusing.stack) ↔
        ¬ ((∃ name e, Request.bindGlobal "x" = .bindGlobal name ∧
            refusing.assignment? name = some (.error e)) ∨
          Request.bindGlobal "x" = .popString ∧ ∃ e, refusing.refusedText? (fun _ => none) = some e)) :=
  ⟨(Reachable.offering []).after _,
    failed_keeps_stack_iff _ ((Reachable.offering []).after _) (.bindGlobal "x")⟩

/-- The value is lost when the globals refuse it. -/
theorem bindGlobal_refused_loses_value :
    Reachable refusing ∧ refusing.peekInteger (-1) = some 7 ∧
      ((refusing.answer (.bindGlobal "x")).1 matches .error (.failed (.fatal _))) ∧
      (refusing.answer (.bindGlobal "x")).2.depth = 0 :=
  ⟨(Reachable.offering []).after _, by decide +kernel, by decide +kernel, by decide +kernel⟩

end Host
end ScriptHost
