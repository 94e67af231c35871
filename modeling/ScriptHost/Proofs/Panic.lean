import ScriptHost.Proofs.Request
/-! Panics of the functions of the host. Whatever way a panic has taken through scripts, it reaches the host when
the interpreter is done, and a run and a renewal return it as an error. To make a global is not guarded. -/
namespace ScriptHost

namespace Lua

/-- The panic that a value still carries. -/
def World.payload? (w : World) : Value → Option PanicPayload
  | .failure place =>
    match w.failures[place]? with
    | some (.panic payload) => payload
    | _ => none
  | _ => none

/-- A value gives its panic to the host when it arrives there. -/
theorem World.receive_error_iff (w : World) (v : Value) (payload : PanicPayload) :
    (w.receive v).1 = .error payload ↔ w.payload? v = some payload := by
  cases v with
  | failure place =>
    rcases hf : w.failures[place]? with _ | e | _ | held <;> simp [receive, payload?, hf]
  | _ => simp [receive, payload?]

theorem World.receive_of_none {w : World} {v : Value} (hv : w.payload? v = none) :
    ∃ a, w.receive v = (.ok a, w) := by
  cases v with
  | failure place =>
    rcases hf : w.failures[place]? with _ | e | _ | held
    · exact ⟨.nil, by simp [receive, hf]⟩
    · exact ⟨.error e, by simp [receive, hf]⟩
    · exact ⟨.nil, by simp [receive, hf]⟩
    · simp [payload?, hf] at hv
  | _ => exact ⟨_, rfl⟩

/-- Of several values the first that carries a panic gives it to the host. -/
theorem World.receiveAll_error_iff (w : World) (values : List Value) (payload : PanicPayload) :
    (w.receiveAll values).1 = .error payload ↔ values.findSome? w.payload? = some payload := by
  induction values with
  | nil => simp [receiveAll]
  | cons v rest ih =>
    cases hv : w.payload? v with
    | none =>
      obtain ⟨a, ha⟩ := receive_of_none hv
      simp only [List.findSome?_cons, hv, ← ih, receiveAll, ha]
      rcases w.receiveAll rest with ⟨_ | _, w'⟩ <;> simp
    | some held =>
      have hr := (w.receive_error_iff v held).mpr hv
      rw [List.findSome?_cons, hv, receiveAll]
      rcases h : w.receive v with ⟨_ | a, w'⟩ <;> simp_all

/-- The panic with which a run ends: that of the error that no script has caught, or else the first among the
results. -/
def Outcome.panic? : Outcome → Option PanicPayload
  | .finished w values => values.findSome? w.payload?
  | .failed w raised => w.payload? raised.value
  | .exhausted _ => none

namespace Interpreter

/-- What the machine makes of a task. -/
def outcome (i : Interpreter) (levels : Nat) (t : Task (List Value)) : Outcome :=
  Machine.run (provision i.reading) stepLimit (.start i.world levels (.function explainValue) t)

/-- A panic goes on in the host exactly when the machine ends with it. -/
theorem run_panic_iff (i : Interpreter) (levels : Nat) (t : Task (List Value)) (payload : PanicPayload) :
    (i.run levels t).1 = .panic payload ↔ (i.outcome levels t).panic? = some payload := by
  unfold run outcome
  generalize Machine.run (provision i.reading) stepLimit _ = ended
  cases ended with
  | finished w values =>
    simp only [Outcome.panic?, ← World.receiveAll_error_iff]
    rcases w.receiveAll values with ⟨_ | _, w'⟩ <;> simp
  | failed w raised =>
    simp only [Outcome.panic?, World.arrivedError]
    cases raised.value with
    | failure place =>
      rcases hf : w.failures[place]? with _ | e | _ | held <;> simp [World.payload?, hf]
    | _ => simp [World.payload?]
  | exhausted w => simp [Outcome.panic?]

/-- The panic with which the metatable of the globals ends when a global is set. -/
def assignmentPanic? (i : Interpreter) (name : String) (h : HostValue) : Option PanicPayload :=
  let (v, w) := i.world.give h
  if (w.table w.globals).metatable.isNone then none
  else (outcome { i with world := w } 1 (setting w name v)).panic?

theorem setGlobal_panic_iff (i : Interpreter) (name : String) (h : HostValue) (payload : PanicPayload) :
    (i.setGlobal name h).1 = .panic payload ↔ i.assignmentPanic? name h = some payload := by
  simp only [setGlobal, assignmentPanic?]
  split
  · simp
  · rw [← run_panic_iff]
    split <;> simp_all

end Interpreter
end Lua

namespace Host

/-- The panic with which the interpreter ends what it does for a request. -/
def uncaught? (h : Host) : Request → Option Lua.PanicPayload
  | .renew =>
    match h.registry.bindInto h.fresh with
    | (.panic payload, _) => some payload
    | _ => none
  | .bindGlobal name =>
    match h.interpreter, h.stack with
    | some i, v :: _ => i.assignmentPanic? name v
    | _, _ => none
  | .run r =>
    match h.interpreter, h.chunk? r with
    | some i, some (source, _) =>
      match i.load h.config.chunkName source with
      | (.ok function, i) => (i.takeEvents.2.outcome 0 (.call (.function function) [])).panic?
      | (.error _, _) => none
    | _, _ => none
  | _ => none

variable (h : Host)

private theorem uncaught?_run_iff (r : Run) (payload : Lua.PanicPayload) :
    h.uncaught? (.run r) = some payload ↔ h.verdict? r = some (.panic payload) := by
  simp only [uncaught?, verdict?]
  rcases h.interpreter with _ | i
  · simp
  rcases h.chunk? r with _ | ⟨source, shown⟩
  · simp
  simp only [Option.some_inj, judge]
  rcases i.load h.config.chunkName source with ⟨e | function, j⟩
  · simp
  · simp only [← Lua.Interpreter.run_panic_iff]
    rcases hc : j.takeEvents.2.call function with ⟨values | e | held, k⟩ <;>
      simp_all [Lua.Interpreter.call]

private theorem conclude_ne_unwound (r : Run) (display : String) (verdict : Verdict)
    (payload : Lua.PanicPayload) : (h.conclude r display verdict).1 ≠ .error (.unwound payload) := by
  cases verdict with
  | error phase e => by_cases he : e.isFatal <;> simp [conclude, he]
  | panic held => simp [conclude]
  | results values =>
    simp only [conclude]
    generalize values.headD .nil = v
    by_cases hf : v.isFunction <;> cases r <;> simp [accept, unlessFunction, hf]

/-- A panic leaves a request exactly when it ends the making of a global. -/
theorem unwound_iff (request : Request) (payload : Lua.PanicPayload) :
    (h.answer request).1 = .error (.unwound payload) ↔
      (∃ name, request = .bindGlobal name) ∧ h.uncaught? request = some payload := by
  cases request with
  | renew => simp [answer_renew]
  | pushInteger _ | pushNumber _ | pushBoolean _ | pushPointer _ | peekInteger _ =>
    constructor
    · intro ha
      cases ha
    · rintro ⟨⟨name, hr⟩, -⟩
      cases hr
  | pushString text =>
    rw [answer_pushString]
    split <;> simp
  | popString =>
    rcases hs : h.stack with _ | ⟨v, rest⟩
    · simp [answer_popString_nil h hs]
    · rw [answer_popString_cons h hs]
      split
      · split <;> simp
      · simp
  | bindGlobal name =>
    rcases hs : h.stack with _ | ⟨v, rest⟩
    · simp [answer_bindGlobal_nil h hs, uncaught?, hs]
    · cases hi : h.interpreter with
      | none => simp [answer_bindGlobal_none h hi hs, uncaught?, hs, hi]
      | some i =>
        rw [answer_bindGlobal_cons h hi hs]
        simp only [uncaught?, hi, hs, ← Lua.Interpreter.setGlobal_panic_iff]
        rcases i.setGlobal name v with ⟨_ | e | held, j⟩ <;> simp
  | run r =>
    have hn : (h.answer (.run r)).1 ≠ .error (.unwound payload) := by
      cases hv : h.verdict? r with
      | none => obtain ha | ⟨event, -, ha⟩ := answer_run_none hv <;> simp [ha]
      | some verdict =>
        rw [answer_run hv]
        exact conclude_ne_unwound _ _ _ _ _
    simp [hn]

/-- Panics are contained: what the interpreter ends with comes back as an error, and no panic leaves the request.
This holds of every request but to make a global, and of that unless the metatable of the globals runs a function
of the host that panics. -/
theorem panic_contained_iff (request : Request) :
    ((∀ payload, h.uncaught? request = some payload →
        (h.answer request).1 = .error (.failed (.panic payload.report))) ∧
      ∀ payload, (h.answer request).1 ≠ .error (.unwound payload)) ↔
    ¬ ∃ name payload, request = .bindGlobal name ∧ h.uncaught? request = some payload := by
  constructor
  · rintro ⟨-, hc⟩ ⟨name, payload, hr, hu⟩
    exact hc payload ((h.unwound_iff request payload).mpr ⟨⟨name, hr⟩, hu⟩)
  · intro hn
    refine ⟨fun payload hu => ?_, fun payload ha => ?_⟩
    · cases request with
      | renew => simp [uncaught?, h.bindInto_fresh.1] at hu
      | bindGlobal name => exact absurd ⟨name, payload, rfl, hu⟩ hn
      | run r =>
        rw [answer_run ((h.uncaught?_run_iff r payload).mp hu)]
        rfl
      | _ => cases hu
    · obtain ⟨⟨name, hr⟩, hu⟩ := (h.unwound_iff request payload).mp ha
      exact hn ⟨name, payload, hr, hu⟩

/-- A host whose globals panic when they are set, with a value on its stack. -/
def panicking : Host :=
  (offering [("Boom", .panic ⟨some "interpreter invariant broken"⟩)]).after
    [.run (.script "setmetatable(_G, \x7b__newindex = Boom\x7d)"), .pushInteger 1]

/-- The panic leaves the request. -/
theorem bindGlobal_panic_unwinds :
    Reachable panicking ∧
      panicking.uncaught? (.bindGlobal "x") = some ⟨some "interpreter invariant broken"⟩ ∧
      (panicking.answer (.bindGlobal "x")).1 matches .error (.unwound _) :=
  ⟨(Reachable.offering _).after _, by decide +kernel, by decide +kernel⟩

end Host
end ScriptHost
