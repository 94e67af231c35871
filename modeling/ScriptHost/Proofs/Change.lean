import ScriptHost.Proofs.Stack
/-! What one request can do to the stack of a host and to its interpreter, said once for all requests. -/
namespace ScriptHost

namespace Lua.HostValue

/-- Whether a value is something in the memory of an interpreter and not a value of its own. -/
def isReference : HostValue → Bool
  | .nil | .bool _ | .pointer _ | .int _ | .float _ => false
  | .string _ | .table _ | .function _ | .error _ => true

theorem isReference_of_isFunction {v : HostValue} (hv : v.isFunction) : v.isReference := by
  cases v with
  | function _ => rfl
  | _ => cases hv

end Lua.HostValue

namespace Host

/-- The stacks that a request can leave behind. -/
inductive Change (h : Host) (request : Request) : List Lua.HostValue → Prop where
  | same : Change h request h.stack
  | cleared : request = .renew → Change h request []
  /-- The value on top is taken away. -/
  | taken {v : Lua.HostValue} {rest : List Lua.HostValue} : h.stack = v :: rest → Change h request rest
  | pushed {v : Lua.HostValue} : v.isReference = false → Change h request (v :: h.stack)
  | text {s : Text.Bytes} : h.interpreter.isSome → Change h request (.string s :: h.stack)
  /-- The first result of a chunk stays, which is no function. -/
  | result {r : Run} {values : List Lua.HostValue} : request = .run r →
      h.verdict? r = some (.results values) → (values.headD .nil).isFunction = false →
      Change h request (values.headD .nil :: h.stack)

variable (h : Host)

/-- A result that is left on the stack is no function. -/
private theorem isFunction_of_accepted {h : Host} {r : Run} (hr : r.leavesResult) {v : Lua.HostValue}
    (ha : (h.accept v r).1 = .ok (.truth true)) : v.isFunction = false := by
  cases r with
  | expression text =>
    cases hv : v.isFunction with
    | false => rfl
    | true => simp [accept, unlessFunction, hv] at ha
  | _ => cases hr

private theorem change_run (r : Run) : h.Change (.run r) (h.answer (.run r)).2.stack := by
  cases hv : h.verdict? r with
  | none =>
    obtain ha | ⟨event, -, ha⟩ := answer_run_none hv <;> rw [ha] <;> exact .same
  | some verdict =>
    obtain ⟨interpreter, log, hj, -⟩ := h.judged_frame r
    have hs : (h.judged r).stack = h.stack := by rw [hj]
    rw [answer_run hv]
    obtain ⟨values, hr, hok, rfl, hc⟩ | ⟨-, hc⟩ := stack_conclude (h.judged r) r (h.display r) verdict
    · rw [hc, hs]
      exact .result rfl hv (isFunction_of_accepted hr hok)
    · rw [hc, hs]
      exact .same

private theorem change_popString : h.Change .popString (h.answer .popString).2.stack := by
  rcases hs : h.stack with _ | ⟨v, rest⟩
  · rw [answer_popString_nil h hs]
    exact .same
  · rw [answer_popString_cons h hs]
    split
    · split <;> exact .taken hs
    · exact .same

private theorem change_bindGlobal (name : String) :
    h.Change (.bindGlobal name) (h.answer (.bindGlobal name)).2.stack := by
  rcases hs : h.stack with _ | ⟨v, rest⟩
  · rw [answer_bindGlobal_nil h hs]
    exact .same
  · cases hi : h.interpreter with
    | none =>
      rw [answer_bindGlobal_none h hi hs]
      exact .taken hs
    | some i =>
      rw [answer_bindGlobal_cons h hi hs]
      rcases i.setGlobal name v with ⟨_ | e | payload, j⟩ <;> exact .taken hs

/-- No request does anything else to the stack. -/
theorem change_answer (request : Request) : h.Change request (h.answer request).2.stack := by
  cases request with
  | renew =>
    rw [answer_renew]
    exact .cleared rfl
  | pushInteger _ | pushNumber _ | pushBoolean _ => exact .pushed rfl
  | pushPointer address =>
    by_cases ha : address == 0
    · exact .pushed (by simp [ha, Lua.HostValue.isReference])
    · exact .pushed (by simp [ha, Lua.HostValue.isReference])
  | pushString text =>
    rw [answer_pushString]
    split
    · next i hi => exact .text (by rw [hi]; rfl)
    · exact .same
  | popString => exact h.change_popString
  | peekInteger _ => exact .same
  | bindGlobal name => exact h.change_bindGlobal name
  | run r => exact h.change_run r

/-- What a host does about a verdict shows on its stack, in its log and in its reports. -/
theorem conclude_frame (r : Run) (display : String) (verdict : Verdict) :
    ∃ stack log reports, (h.conclude r display verdict).2 = { h with stack, log, reports } := by
  cases verdict with
  | error phase e =>
    simp only [conclude]
    split <;> exact ⟨_, _, _, rfl⟩
  | panic payload => exact ⟨_, _, _, rfl⟩
  | results values =>
    obtain ⟨stack, notes, -, hc⟩ := h.conclude_results r display values
    exact ⟨_, _, _, hc⟩

/-- A request other than a renewal neither closes an interpreter nor starts one. -/
theorem interpreter_answer {request : Request} (hr : request ≠ .renew) :
    (h.answer request).2.generation = h.generation ∧
      ((h.answer request).2.interpreter = none ↔ h.interpreter = none) := by
  cases request with
  | renew => exact absurd rfl hr
  | pushInteger _ | pushNumber _ | pushBoolean _ | pushPointer _ | peekInteger _ => exact ⟨rfl, Iff.rfl⟩
  | pushString text =>
    rw [answer_pushString]
    split <;> exact ⟨rfl, Iff.rfl⟩
  | popString =>
    rcases hs : h.stack with _ | ⟨v, rest⟩
    · rw [answer_popString_nil h hs]
      exact ⟨rfl, Iff.rfl⟩
    · rw [answer_popString_cons h hs]
      split
      · split <;> exact ⟨rfl, Iff.rfl⟩
      · exact ⟨rfl, Iff.rfl⟩
  | bindGlobal name =>
    rcases hs : h.stack with _ | ⟨v, rest⟩
    · rw [answer_bindGlobal_nil h hs]
      exact ⟨rfl, Iff.rfl⟩
    · cases hi : h.interpreter with
      | none =>
        rw [answer_bindGlobal_none h hi hs]
        exact ⟨rfl, by simp [withStack, hi]⟩
      | some i =>
        rw [answer_bindGlobal_cons h hi hs]
        rcases i.setGlobal name v with ⟨_ | e | payload, j⟩ <;>
          exact ⟨rfl, by simp [withStack, keeping, noted]⟩
  | run r =>
    cases hv : h.verdict? r with
    | none =>
      obtain ha | ⟨event, -, ha⟩ := answer_run_none hv <;> rw [ha] <;> exact ⟨rfl, Iff.rfl⟩
    | some verdict =>
      obtain ⟨stack, log, reports, hframe⟩ := (h.judged r).conclude_frame r (h.display r) verdict
      obtain ⟨interpreter, log', hj, hi⟩ := h.judged_frame r
      rw [answer_run hv, hframe, hj]
      cases hn : h.interpreter with
      | none => simp [verdict?, hn] at hv
      | some i =>
        obtain ⟨j, rfl⟩ := Option.isSome_iff_exists.mp (hi (by rw [hn]; rfl))
        exact ⟨rfl, by simp⟩

end Host
end ScriptHost
