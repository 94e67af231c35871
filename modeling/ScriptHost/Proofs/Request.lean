import ScriptHost.Proofs.Renewal
import ScriptHost.Proofs.Run
/-! The requests that run no chunk, what becomes of any request when a string is refused, and what none changes. -/
namespace ScriptHost
namespace Host
variable (h : Host)

/-- What the interpreter answers when the value on top of the stack is to become a global. -/
def assignment? (name : String) (refuses : Lua.Refusal := fun _ => none) : Option (Lua.Answer Unit) :=
  match h.interpreter, h.stack with
  | some i, v :: _ => some (i.assign name v refuses).1
  | _, _ => none

/-- The error with which the interpreter refuses the text of the value on top of the stack. It only has to make one for
a number. -/
def refusedText? (refuses : Lua.Refusal) : Option Lua.ScriptError :=
  match h.stack with
  | .int i :: _ => (Lua.HostValue.int i).coerced?.bind refuses
  | .float x :: _ => (Lua.HostValue.float x).coerced?.bind refuses
  | _ => none

theorem answer_renew : h.answer .renew = (.ok .done, h.renewed) := by
  simp [answer, perform, carryOut_renew]

/-- A string that is refused is a fatal error, whatever the reason. -/
theorem answer_pushString_refusing (text : String) (refuses : Lua.Refusal) :
    h.answer (.pushString text) refuses = match h.interpreter with
      | some _ =>
        match refuses text.toUTF8 with
        | none => (.ok .done, h.withStack (.string text.toUTF8 :: h.stack))
        | some e => (.error (.failed (.fatal e.message)), h.noted (.fatalError e.message))
      | none => (.error (.failed (.initialization "Lua instance is not initialized")), h) := by
  cases hi : h.interpreter with
  | none => simp [answer, perform, pushString, carryOut_current_none h hi]
  | some i =>
    simp only [answer, perform, pushString, carryOut_bind, carryOut_current h hi]
    cases refuses text.toUTF8 <;> rfl

theorem answer_pushString (text : String) :
    h.answer (.pushString text) = match h.interpreter with
      | some _ => (.ok .done, h.withStack (.string text.toUTF8 :: h.stack))
      | none => (.error (.failed (.initialization "Lua instance is not initialized")), h) := by
  rw [answer_pushString_refusing]

theorem textOf?_eq {i : Lua.Interpreter} (hi : h.interpreter = some i) (v : Lua.HostValue) :
    h.textOf? v = v.text? := by
  cases v <;> simp [textOf?, hi]

theorem answer_popString_nil (hs : h.stack = []) (refuses : Lua.Refusal := fun _ => none) :
    h.answer .popString refuses =
      (.error (.failed (.stackPrecondition "pop_string on an empty stack")), h) := by
  simp [answer, perform, popString, hs]

/-- A text or a number is taken from the stack even if its text is not to be had, and all else stays. -/
theorem answer_popString_cons {v : Lua.HostValue} {rest : List Lua.HostValue} (hs : h.stack = v :: rest)
    (refuses : Lua.Refusal := fun _ => none) :
    h.answer .popString refuses =
      if v.text?.isSome then
        match h.textOf? v refuses with
        | some text => (.ok (.text text), h.withStack rest)
        | none =>
          (.error (.failed (.stackPrecondition "top of the stack is not convertible to text")),
            h.withStack rest)
      else
        (.error (.failed (.stackPrecondition
          s!"pop_string expected text on top of the stack, found {v.kindName}")), h) := by
  cases v with
  | string _ | int _ | float _ =>
    simp only [answer, perform, popString, carryOut_bind, carryOut_get, hs, carryOut_set,
      Lua.HostValue.text?, Option.isSome_some, if_true]
    rcases h.textOf? _ refuses with _ | text <;> rfl
  | _ => simp [answer, perform, popString, hs, Lua.HostValue.text?]

/-- Nothing is to become a global. -/
theorem answer_bindGlobal_nil (hs : h.stack = []) (name : String) (refuses : Lua.Refusal := fun _ => none) :
    h.answer (.bindGlobal name) refuses =
      (.error (.failed (.stackPrecondition "pop on an empty stack")), h) := by
  simp [answer, perform, bindGlobal, pop, hs]

/-- The value is off the stack before the interpreter is asked, whatever the interpreter answers then. -/
theorem answer_bindGlobal_refusing {i : Lua.Interpreter} (hi : h.interpreter = some i) {v : Lua.HostValue}
    {rest : List Lua.HostValue} (hs : h.stack = v :: rest) (name : String) (refuses : Lua.Refusal) :
    h.answer (.bindGlobal name) refuses = match i.assign name v refuses with
      | (.ok (), j) => (.ok .done, ((h.keeping j).withStack rest).noted (.globalBound name))
      | (.error e, j) =>
        (.error (.failed (.fatal e.message)), ((h.keeping j).withStack rest).noted (.fatalError e.message))
      | (.panic payload, j) => (.error (.unwound payload), (h.keeping j).withStack rest) := by
  have hp : h.carryOut pop = (.ok v, h.withStack rest) := by simp [pop, hs]
  have hi' : (h.withStack rest).interpreter = some i := hi
  rcases hg : i.assign name v refuses with ⟨_ | e | payload, j⟩ <;>
    simp [answer, perform, bindGlobal, hp, carryOut_enter _ hi', hg]

theorem answer_bindGlobal_cons {i : Lua.Interpreter} (hi : h.interpreter = some i) {v : Lua.HostValue}
    {rest : List Lua.HostValue} (hs : h.stack = v :: rest) (name : String) :
    h.answer (.bindGlobal name) = match i.setGlobal name v with
      | (.ok (), j) => (.ok .done, ((h.keeping j).withStack rest).noted (.globalBound name))
      | (.error e, j) =>
        (.error (.failed (.fatal e.message)), ((h.keeping j).withStack rest).noted (.fatalError e.message))
      | (.panic payload, j) => (.error (.unwound payload), (h.keeping j).withStack rest) :=
  h.answer_bindGlobal_refusing hi hs name fun _ => none

/-- Without an interpreter a value is lost. -/
theorem answer_bindGlobal_none (hi : h.interpreter = none) {v : Lua.HostValue}
    {rest : List Lua.HostValue} (hs : h.stack = v :: rest) (name : String)
    (refuses : Lua.Refusal := fun _ => none) :
    h.answer (.bindGlobal name) refuses =
      (.error (.failed (.initialization "Lua instance is not initialized")), h.withStack rest) := by
  have hp : h.carryOut pop = (.ok v, h.withStack rest) := by simp [pop, hs]
  have hi' : (h.withStack rest).interpreter = none := hi
  simp [answer, perform, bindGlobal, enter, hp, carryOut_current_none _ hi']

private theorem snd_carryOut_map {α β : Type} (f : α → β) (work : Operation α) :
    (h.carryOut (f <$> work)).2 = (h.carryOut work).2 := by
  rw [carryOut_map]
  rcases h.carryOut work with ⟨_ | _, _⟩ <;> rfl

private theorem carryOut_map_error_iff {α β : Type} (f : α → β) (work : Operation α) (e : Interruption) :
    (h.carryOut (f <$> work)).1 = .error e ↔ (h.carryOut work).1 = .error e := by
  rw [carryOut_map]
  rcases h.carryOut work with ⟨_ | _, _⟩ <;> simp

/-- Whether the text of a result is refused shows in the reply and in the log at most. -/
private theorem carryOut_runExpressionString_refusing (expression : String) (refuses : Lua.Refusal) :
    (∀ e, (h.carryOut (runExpressionString expression refuses)).1 = .error e ↔
        (h.carryOut (runExpressionString expression)).1 = .error e) ∧
      ∃ log, (h.carryOut (runExpressionString expression refuses)).2 =
        { (h.carryOut (runExpressionString expression)).2 with log } := by
  simp only [runExpressionString, carryOut_bind]
  rcases h.carryOut (runExpression expression) with ⟨e | found, g⟩
  · exact ⟨fun _ => Iff.rfl, _, rfl⟩
  cases found with
  | false => exact ⟨fun _ => Iff.rfl, _, rfl⟩
  | true =>
    simp only [if_true, carryOut_bind]
    rcases g.carryOut pop with ⟨e | v, g'⟩
    · exact ⟨fun _ => Iff.rfl, _, rfl⟩
    · simp only [carryOut_get]
      rcases g'.textOf? v refuses with _ | text <;> rcases g'.textOf? v with _ | text' <;>
        exact ⟨fun _ => by simp, _, rfl⟩

/-- A run needs a string for nothing but the text of its result. -/
theorem answer_run_refusing (r : Run) (refuses : Lua.Refusal) :
    (∀ e, (h.answer (.run r) refuses).1 = .error e ↔ (h.answer (.run r)).1 = .error e) ∧
      ∃ log, (h.answer (.run r) refuses).2 = { (h.answer (.run r)).2 with log } := by
  cases r with
  | text expression =>
    obtain ⟨herror, log, hlog⟩ := h.carryOut_runExpressionString_refusing expression refuses
    simp only [answer, perform, runFor, bind_pure_comp, snd_carryOut_map, carryOut_map_error_iff]
    exact ⟨herror, log, hlog⟩
  | _ => exact ⟨fun _ => Iff.rfl, _, rfl⟩

/-- Who is refused a string has what it would have had otherwise, but for the log, or what it had before, but for the log
and the value on top of the stack. -/
theorem answer_refusing (request : Request) (refuses : Lua.Refusal) :
    (∃ log, (h.answer request refuses).2 = { (h.answer request).2 with log }) ∨
      ∃ interpreter rest log, (h.answer request refuses).2 = { h with interpreter, stack := rest, log } ∧
        rest <:+ h.stack ∧
        (interpreter = h.interpreter ∨ ∃ i, h.interpreter = some i ∧ interpreter = some i.takeEvents.2) := by
  cases request with
  | pushString text =>
    rw [answer_pushString_refusing, answer_pushString]
    cases refuses text.toUTF8 with
    | none => exact .inl ⟨_, rfl⟩
    | some e => split <;> exact .inr ⟨_, _, _, rfl, List.suffix_refl _, .inl rfl⟩
  | popString =>
    rcases hs : h.stack with _ | ⟨v, rest⟩
    · exact .inl ⟨_, by rw [answer_popString_nil h hs refuses, answer_popString_nil h hs]⟩
    · rw [answer_popString_cons h hs refuses, answer_popString_cons h hs]
      split
      · refine .inr ⟨h.interpreter, rest, h.log, ?_, List.suffix_cons v rest, .inl rfl⟩
        split <;> rfl
      · exact .inl ⟨_, rfl⟩
  | bindGlobal name =>
    rcases hs : h.stack with _ | ⟨v, rest⟩
    · exact .inl ⟨_, by rw [answer_bindGlobal_nil h hs name refuses, answer_bindGlobal_nil h hs]⟩
    cases hi : h.interpreter with
    | none => exact .inl ⟨_, by rw [answer_bindGlobal_none h hi hs name refuses, answer_bindGlobal_none h hi hs]⟩
    | some i =>
      rw [answer_bindGlobal_refusing h hi hs, answer_bindGlobal_cons h hi hs, Lua.Interpreter.assign]
      cases refuses name.toUTF8 with
      | none => exact .inl ⟨_, rfl⟩
      | some e => exact .inr ⟨_, rest, _, rfl, List.suffix_cons v rest, .inr ⟨i, rfl, rfl⟩⟩
  | run r => exact .inl (h.answer_run_refusing r refuses).2
  | _ => exact .inl ⟨_, rfl⟩

/-- What no request changes: all that a host has been given. Nor does a host lose its interpreter. -/
structure Keeps (h' : Host) : Prop where
  config : h'.config = h.config
  registry : h'.registry = h.registry
  sink : h'.sink = h.sink
  files : h'.files = h.files
  directory : h'.directory = h.directory
  clock : h'.clock = h.clock
  interpreter : h.interpreter.isSome → h'.interpreter.isSome

variable {h}

theorem Keeps.trans {h₁ h₂ : Host} (k₁ : h.Keeps h₁) (k₂ : h₁.Keeps h₂) : h.Keeps h₂ where
  config := k₂.config.trans k₁.config
  registry := k₂.registry.trans k₁.registry
  sink := k₂.sink.trans k₁.sink
  files := k₂.files.trans k₁.files
  directory := k₂.directory.trans k₁.directory
  clock := k₂.clock.trans k₁.clock
  interpreter hi := k₂.interpreter (k₁.interpreter hi)

/-- Only what a host does for itself has changed. -/
theorem Keeps.of_eq {h' : Host} {interpreter : Option Lua.Interpreter} {stack : List Lua.HostValue}
    {generation : Nat} {log : List LogEvent} {reports : List Diagnostic}
    (heq : h' = { h with interpreter, stack, generation, log, reports })
    (hi : h.interpreter.isSome → interpreter.isSome) : h.Keeps h' := by
  subst heq
  exact ⟨rfl, rfl, rfl, rfl, rfl, rfl, hi⟩

variable (h)

theorem keeps_conclude (r : Run) (display : String) (verdict : Verdict) :
    h.Keeps (h.conclude r display verdict).2 := by
  cases verdict with
  | error phase e =>
    simp only [conclude]
    split <;> exact .of_eq rfl id
  | panic payload => exact .of_eq rfl id
  | results values =>
    obtain ⟨stack, notes, -, hc⟩ := h.conclude_results r display values
    exact .of_eq hc id

private theorem answer_other (request : Request) (hr : ∀ r, request ≠ .run r) :
    ∃ interpreter stack generation log,
      (h.answer request).2 = { h with interpreter, stack, generation, log } ∧
        (h.interpreter.isSome → interpreter.isSome) := by
  cases request with
  | renew =>
    rw [answer_renew]
    exact ⟨_, _, _, _, rfl, fun _ => rfl⟩
  | pushInteger _ | pushNumber _ | pushBoolean _ | pushPointer _ | peekInteger _ =>
    exact ⟨_, _, _, _, rfl, id⟩
  | pushString text =>
    rw [answer_pushString]
    split <;> exact ⟨_, _, _, _, rfl, id⟩
  | popString =>
    rcases hs : h.stack with _ | ⟨v, rest⟩
    · rw [answer_popString_nil h hs]
      exact ⟨_, _, _, _, rfl, id⟩
    · rw [answer_popString_cons h hs]
      split
      · split <;> exact ⟨_, _, _, _, rfl, id⟩
      · exact ⟨_, _, _, _, rfl, id⟩
  | bindGlobal name =>
    rcases hs : h.stack with _ | ⟨v, rest⟩
    · rw [answer_bindGlobal_nil h hs]
      exact ⟨_, _, _, _, rfl, id⟩
    · cases hi : h.interpreter with
      | none =>
        rw [answer_bindGlobal_none h hi hs]
        exact ⟨_, _, _, _, rfl, by simp [hi]⟩
      | some i =>
        rw [answer_bindGlobal_cons h hi hs]
        rcases i.setGlobal name v with ⟨_ | e | payload, j⟩ <;> exact ⟨_, _, _, _, rfl, fun _ => rfl⟩
  | run r => exact absurd rfl (hr r)

private theorem keeps_answer_other {request : Request} (hr : ∀ r, request ≠ .run r) :
    h.Keeps (h.answer request).2 := by
  obtain ⟨interpreter, stack, generation, log, ha, hi⟩ := h.answer_other request hr
  exact .of_eq ha hi

/-- Requests that run no chunk make no report. -/
theorem reports_answer_other {request : Request} (hr : ∀ r, request ≠ .run r) :
    (h.answer request).2.reports = h.reports := by
  obtain ⟨interpreter, stack, generation, log, ha, -⟩ := h.answer_other request hr
  rw [ha]

private theorem keeps_answer_run (r : Run) : h.Keeps (h.answer (.run r)).2 := by
  cases hv : h.verdict? r with
  | none => obtain hr | ⟨event, -, hr⟩ := answer_run_none hv <;> rw [hr] <;> exact .of_eq rfl id
  | some verdict =>
    obtain ⟨interpreter, log, hj, hi⟩ := h.judged_frame r
    rw [answer_run hv]
    exact (Keeps.of_eq hj hi).trans (keeps_conclude ..)

/-- No request changes what a host has been given. -/
theorem keeps_answer (request : Request) (refuses : Lua.Refusal := fun _ => none) :
    h.Keeps (h.answer request refuses).2 := by
  have hplain : h.Keeps (h.answer request).2 := by
    cases request with
    | run r => exact h.keeps_answer_run r
    | _ => exact keeps_answer_other h (by simp)
  obtain ⟨log, ha⟩ | ⟨interpreter, rest, log, ha, -, hi⟩ := h.answer_refusing request refuses
  · rw [ha]
    exact hplain.trans (.of_eq rfl id)
  · refine .of_eq ha fun hsome => ?_
    obtain rfl | ⟨i, -, rfl⟩ := hi
    · exact hsome
    · rfl

theorem keeps_after (h : Host) (requests : List Request) : h.Keeps (h.after requests) := by
  induction requests generalizing h with
  | nil => exact ⟨rfl, rfl, rfl, rfl, rfl, rfl, id⟩
  | cons request rest ih => exact (h.keeps_answer request).trans (ih _)

end Host

/-- A host with the default configuration that offers some functions to scripts. -/
def Host.offering (functions : List (String × Lua.HostFunction)) : Host :=
  (Host.start { config := {}, registry := .ofList functions, files := fun _ => .error .notFound }).2

theorem Host.start_offering (functions : List (String × Lua.HostFunction)) :
    Host.start { config := {}, registry := .ofList functions, files := fun _ => .error .notFound } =
      (.ok (), .offering functions) :=
  Prod.ext (by rw [start_eq]; rfl) rfl

theorem Reachable.offering (functions : List (String × Lua.HostFunction)) :
    Reachable (Host.offering functions) :=
  .started {} (.ofList functions) _ ⟨[]⟩ {} (Host.start_offering functions)

theorem Reachable.after {h : Host} (hr : Reachable h) (requests : List Request) :
    Reachable (h.after requests) := by
  induction requests generalizing h with
  | nil => exact hr
  | cons request rest ih => exact ih (hr.answered request)

/-- A reachable host has an interpreter. -/
theorem Reachable.interpreter_isSome {h : Host} (hr : Reachable h) : h.interpreter.isSome := by
  induction hr with
  | started config registry files directory clock hs =>
    obtain ⟨-, rfl⟩ := Host.renewed_of_start _ hs
    rfl
  | answered request refuses _ ih => exact (Host.keeps_answer _ request refuses).interpreter ih
  | redirected => assumption

end ScriptHost
