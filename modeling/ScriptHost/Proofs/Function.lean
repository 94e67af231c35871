import ScriptHost.Proofs.Change
/-! Functions on the stack of a host. A chunk is there between its loading and its call, and a result that is a
function is refused, so that between two requests there is none. This is why no run ever misses its chunk or its
result. -/
namespace ScriptHost
open Text (Bytes)

namespace Host

/-- No value on the stack is a function. -/
def HoldsNoFunction (h : Host) : Prop := ∀ v ∈ h.stack, v.isFunction = false

/-- Every change of the stack keeps functions away from it. -/
theorem HoldsNoFunction.change {h : Host} (hn : h.HoldsNoFunction) {request : Request}
    {stack : List Lua.HostValue} (hc : h.Change request stack) : ∀ v ∈ stack, v.isFunction = false := by
  have push {u : Lua.HostValue} (hu : u.isFunction = false) : ∀ v ∈ u :: h.stack, v.isFunction = false := by
    intro v hv
    obtain rfl | hv := List.mem_cons.mp hv
    · exact hu
    · exact hn v hv
  cases hc with
  | same => exact hn
  | cleared _ => simp
  | taken hs =>
    intro v hv
    exact hn v (by rw [hs]; exact List.mem_cons_of_mem _ hv)
  | @pushed u hu =>
    refine push ?_
    cases hf : u.isFunction with
    | false => rfl
    | true =>
      have := Lua.HostValue.isReference_of_isFunction hf
      simp [hu] at this
  | text _ => exact push rfl
  | result _ _ hf => exact push hf

theorem HoldsNoFunction.answer {h : Host} (hn : h.HoldsNoFunction) (request : Request) (refuses : Lua.Refusal) :
    (h.answer request refuses).2.HoldsNoFunction := by
  obtain ⟨log, ha⟩ | ⟨interpreter, rest, log, ha, hrest, -⟩ := h.answer_refusing request refuses
  · rw [ha]
    exact hn.change (h.change_answer request)
  · rw [ha]
    exact fun v hv => hn v (hrest.subset hv)

end Host

/-- No reachable host has a function on its stack. -/
theorem Reachable.holdsNoFunction {h : Host} (hr : Reachable h) : h.HoldsNoFunction := by
  induction hr with
  | started config registry files directory clock hs =>
    obtain ⟨-, rfl⟩ := Host.renewed_of_start _ hs
    exact List.forall_mem_nil _
  | answered request refuses _ ih => exact ih.answer request refuses
  | redirected _ _ _ _ _ ih => exact ih

namespace Host
variable {h : Host} {i : Lua.Interpreter}

/-- A load that says so has put the chunk that the interpreter made on top of the stack. -/
theorem load_true (hi : h.interpreter = some i) {source : Bytes} {display : String} {h' : Host}
    (hl : h.carryOut (load source display) = (.ok true, h')) :
    ∃ function j, i.load h.config.chunkName source = (.ok function, j) ∧
      h' = (h.keeping j).withStack (.function function :: h.stack) := by
  rw [carryOut_load hi] at hl
  rcases hc : i.load h.config.chunkName source with ⟨e | function, j⟩
  · by_cases he : e.isFatal <;> simp [hc, settle, he] at hl
  · simp only [hc, Prod.mk.injEq, true_and] at hl
    exact ⟨function, j, rfl, hl.symm⟩

/-- The only error that loading returns is a fatal one. -/
theorem load_error (hi : h.interpreter = some i) {source : Bytes} {display : String} {e : Interruption}
    (hl : (h.carryOut (load source display)).1 = .error e) : ∃ text, e = .failed (.fatal text) := by
  rw [carryOut_load hi] at hl
  rcases hc : i.load h.config.chunkName source with ⟨err | function, j⟩
  · by_cases he : err.isFatal
    · simp only [hc, settle, if_pos he, Except.error.injEq] at hl
      exact ⟨_, hl.symm⟩
    · simp [hc, settle, he] at hl
  · simp [hc] at hl

/-- What a host does about a verdict returns nothing but panics and fatal errors. -/
private theorem settle_error {wantResult : Bool} {display : String} {verdict : Verdict} {e : Interruption}
    (he : (h.settle wantResult display verdict).1 = .error e) :
    (∃ text, e = .failed (.panic text)) ∨ ∃ text, e = .failed (.fatal text) := by
  cases verdict with
  | error phase err =>
    by_cases hf : err.isFatal
    · simp only [settle, if_pos hf, Except.error.injEq] at he
      exact .inr ⟨_, he.symm⟩
    · simp [settle, hf] at he
  | panic payload =>
    cases he
    exact .inl ⟨_, rfl⟩
  | results values => cases he

/-- Nor does a call that finds its chunk. -/
theorem evaluate_error (hi : h.interpreter = some i) {function : Nat} {rest : List Lua.HostValue}
    (hs : h.stack = .function function :: rest) {wantResult : Bool} {display : String} {e : Interruption}
    (he : (h.carryOut (evaluate wantResult display)).1 = .error e) :
    (∃ text, e = .failed (.panic text)) ∨ ∃ text, e = .failed (.fatal text) := by
  rw [carryOut_evaluate hi hs] at he
  rcases hc : i.call function with ⟨values | err | payload, j⟩ <;> rw [hc] at he <;> exact settle_error he

/-- What an expression leaves on top of the stack can be taken from there and is no function. -/
theorem runExpression_true (hi : h.interpreter = some i) {expression : String} {h' : Host}
    (hr : h.carryOut (runExpression expression) = (.ok true, h')) :
    ∃ v, v.isFunction = false ∧ h'.carryOut pop = (.ok v, h'.withStack h.stack) := by
  simp only [runExpression, carryOut_bind, carryOut_get, carryOut_runChunk hi] at hr
  generalize ("return " ++ h.prepared expression).toUTF8 = source at hr
  obtain ⟨j, log, hj⟩ := judge_frame (h := h) i source
  generalize h.judge i source = judged at hr hj
  obtain ⟨⟨phase, e⟩ | payload | values, g⟩ := judged
  · by_cases he : e.isFatal <;> simp [settle, he] at hr
  · simp [settle] at hr
  · have hg : g.stack = h.stack := (congrArg Host.stack hj :)
    simp only [settle, if_true, carryOut_bind, carryOut_get] at hr
    generalize values.headD .nil = v at hr
    have taken (hh : h' = g.withStack (v :: g.stack)) : h'.carryOut pop = (.ok v, h'.withStack h.stack) := by
      rw [hh, hg]
      rfl
    cases v with
    | function place => cases hr
    | _ => exact ⟨_, rfl, taken (Prod.mk.inj hr).2.symm⟩

/-- A run of a host with an interpreter returns no other errors than panics, fatal errors and functions. -/
theorem answer_run_error_cases (hi : h.interpreter = some i) {r : Run} {e : Interruption}
    (ha : (h.answer (.run r)).1 = .error e) :
    (∃ text, e = .failed (.panic text)) ∨ (∃ text, e = .failed (.fatal text)) ∨ e = .failed .functionResult := by
  cases hv : h.verdict? r with
  | none =>
    obtain ⟨path, err, rfl, hf⟩ := unread_of_verdict?_none hi hv
    rw [answer_unread hf] at ha
    cases ha
  | some verdict =>
    rw [answer_run hv] at ha
    cases verdict with
    | error phase err =>
      simp only [conclude] at ha
      split at ha
      · cases ha
        exact .inr (.inl ⟨_, rfl⟩)
      · cases ha
    | panic payload =>
      cases ha
      exact .inl ⟨_, rfl⟩
    | results values =>
      refine .inr (.inr ?_)
      simp only [conclude] at ha
      cases r with
      | script _ | file _ => cases ha
      | _ =>
        simp only [accept, unlessFunction] at ha
        split at ha
        · cases ha
          rfl
        · cases ha

/-- A reachable host has no function on its stack. So every call of a chunk finds the chunk that was just loaded,
with what was on the stack before below it; the result of an expression is there to be taken and is no function;
and whatever a run returns, it is never the complaint about a missing chunk, a missing value or a wrong number of
values on the stack. -/
theorem no_function_on_stack {h : Host} (hr : Reachable h) :
    (∀ v ∈ h.stack, v.isFunction = false) ∧
    (∀ source display,
      (∀ e, (h.carryOut (load source display)).1 = .error e → ∃ text, e = .failed (.fatal text)) ∧
      ∀ h', h.carryOut (load source display) = (.ok true, h') →
        (∃ i function, h.interpreter = some i ∧ (i.load h.config.chunkName source).1 = .ok function ∧
          h'.carryOut popChunk = (.ok function, h'.withStack h.stack)) ∧
        ∀ wantResult e, (h'.carryOut (evaluate wantResult display)).1 = .error e →
          (∃ text, e = .failed (.panic text)) ∨ ∃ text, e = .failed (.fatal text)) ∧
    (∀ expression h', h.carryOut (runExpression expression) = (.ok true, h') →
      ∃ v, v.isFunction = false ∧ h'.carryOut pop = (.ok v, h'.withStack h.stack)) ∧
    ∀ r e, (h.answer (.run r)).1 = .error e →
      (∃ text, e = .failed (.panic text)) ∨ (∃ text, e = .failed (.fatal text)) ∨
        e = .failed .functionResult := by
  obtain ⟨i, hi⟩ := Option.isSome_iff_exists.mp hr.interpreter_isSome
  refine ⟨hr.holdsNoFunction, fun source display => ⟨fun e he => load_error hi he, fun h' hl => ?_⟩,
    fun expression h' he => runExpression_true hi he, fun r e he => answer_run_error_cases hi he⟩
  obtain ⟨function, j, hc, rfl⟩ := load_true hi hl
  refine ⟨⟨i, function, hi, by rw [hc], ?_⟩, fun wantResult e he => ?_⟩
  · simp [popChunk]
  · exact evaluate_error (i := j.takeEvents.2) rfl rfl he

/-- A host that was asked for the value of an expression that is a function, with another value on its stack. -/
def refused : Host :=
  (offering []).after [.pushInteger 7, .run (.script "function beat() return 4 end"), .run (.expression "beat")]

/-- The function is not kept, and the value below stays. -/
theorem no_function_on_stack_refused :
    Reachable refused ∧ refused.depth = 1 ∧ ∀ v ∈ refused.stack, v.isFunction = false :=
  ⟨(Reachable.offering []).after _, by decide +kernel,
    (no_function_on_stack ((Reachable.offering []).after _)).1⟩

end Host
end ScriptHost
