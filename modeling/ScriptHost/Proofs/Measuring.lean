import ScriptHost.Proofs.Panic
import ScriptHost.Proofs.Reset
/-! What depends on memory. The machine only learns how much memory is in use when a task asks, and what is to happen when
memory is reclaimed hangs on metatables. A run that comes to neither is the same however much memory is in use. -/
namespace ScriptHost
open Text (Bytes)

namespace Lua

/-- Something is to happen when memory is reclaimed: a table has a metatable with a finalizer or a mode. -/
def World.watches (w : World) : Bool :=
  w.tables.any fun t => t.metatable.any fun m =>
    !((w.table m).getName "__gc").isNil || !((w.table m).getName "__mode").isNil

/-- A task asks about memory. -/
def Step.asks : Step → Bool
  | .measure _ _ => true
  | _ => false

namespace Machine

/-- The next step of the machine asks about memory. -/
def asks (m : Machine) : Bool :=
  match m.control with
  | .script w f =>
    if h : f.pc < f.proto.code.size then
      match f.execute w f.proto.code[f.pc] with
      | .work _ step => step.asks
      | _ => false
    else false
  | .work _ step => step.asks
  | _ => false

/-- It matters to a run what becomes of memory: some step of it asks, or is taken where something is to happen when memory
is reclaimed. -/
def heeds (provision : Provision) : Nat → Machine → Bool
  | 0, _ => false
  | fuel + 1, m =>
    m.asks || m.control.world.watches ||
      match m.advance provision with
      | .inl m => heeds provision fuel m
      | .inr _ => false

section Advance
variable (p : Provision) (memory : World → MemoryReading)

theorem call_withMemory (w : World) (frames : List Frame) (isTail : Bool) (levels base fuel : Nat) (f : Value)
    (args : List Value) :
    call { p with memory } w frames isTail levels base fuel f args = call p w frames isTail levels base fuel f args := by
  induction fuel generalizing f args with
  | zero => rfl
  | succ fuel ih =>
    cases f with
    | function place => rfl
    | _ => simp only [call, ih]

theorem callDeeper_withMemory (w : World) (frames : List Frame) (levels base : Nat) (f : Value) (args : List Value) :
    callDeeper { p with memory } w frames levels base f args = callDeeper p w frames levels base f args := by
  simp only [callDeeper, call_withMemory]

theorem closeAfter_withMemory (w : World) (frames : List Frame) (worker : Worker) (handler : Handler)
    (values : List Value) (raised : Raised) (next : Except Raised (List Value) → World → Step) :
    closeAfter { p with memory } w frames worker handler values raised next =
      closeAfter p w frames worker handler values raised next := by
  cases values with
  | nil => rfl
  | cons v rest => simp only [closeAfter, callDeeper_withMemory]

theorem afterStep_withMemory (frames : List Frame) (worker : Worker) {step : Step} (hs : step.asks = false) :
    afterStep { p with memory } frames worker step = afterStep p frames worker step := by
  cases step with
  | measure w next => cases hs
  | _ => simp only [afterStep, callDeeper_withMemory]

theorem afterInstruction_withMemory (frames : List Frame) {effect : Effect}
    (he : ∀ f step, effect = .work f step → step.asks = false) :
    afterInstruction { p with memory } frames effect = afterInstruction p frames effect := by
  cases effect with
  | work f step => exact afterStep_withMemory p memory _ _ (he f step rfl)
  | _ => simp only [afterInstruction, call_withMemory, callDeeper_withMemory]

theorem deliver_withMemory (w : World) (frames : List Frame) (values : List Value) :
    deliver { p with memory } w frames values = deliver p w frames values := by
  simp only [deliver, closeAfter_withMemory]

theorem handle_withMemory (w : World) (frames : List Frame) (levels : Nat) (raised : Raised) :
    handle { p with memory } w frames levels raised = handle p w frames levels raised := by
  simp only [handle, callDeeper_withMemory]

theorem unwind_withMemory (w : World) (raised : Raised) (values : List Value) (frames : List Frame) :
    unwind { p with memory } w raised values frames = unwind p w raised values frames := by
  induction frames generalizing values with
  | nil => rfl
  | cons frame rest ih => cases frame <;> simp only [unwind, closeAfter_withMemory, ih]

/-- A step that does not ask is the same whatever the answer would have been. -/
theorem advance_withMemory {m : Machine} (hm : m.asks = false) : m.advance { p with memory } = m.advance p := by
  obtain ⟨frames, control⟩ := m
  cases control with
  | script w f =>
    simp only [asks] at hm
    simp only [advance]
    split
    · next h =>
      rw [afterInstruction_withMemory]
      intro g step he
      simpa only [h, dite_true, he] using hm
    · rfl
  | work worker step => simp only [advance, afterStep_withMemory p memory _ _ hm]
  | deliver w values => exact deliver_withMemory p memory w frames values
  | raise w levels raised => simp only [advance, handle_withMemory]
  | unwind w raised => exact unwind_withMemory p memory w raised [] frames

/-- A run that does not ask is the same whatever the answers would have been. -/
theorem run_withMemory (fuel : Nat) {m : Machine} (hm : heeds p fuel m = false) :
    run { p with memory } fuel m = run p fuel m := by
  induction fuel generalizing m with
  | zero => rfl
  | succ fuel ih =>
    simp only [heeds, Bool.or_eq_false_iff] at hm
    obtain ⟨⟨hasks, -⟩, hrest⟩ := hm
    simp only [run, advance_withMemory p memory hasks]
    cases hnext : m.advance p with
    | inl m' =>
      simp only [hnext] at hrest
      exact ih hrest
    | inr outcome => rfl

end Advance
end Machine

namespace Interpreter
variable (i : Interpreter) (taken : Nat)

/-- The interpreter with another amount of memory taken by the reading of chunks. -/
def having : Interpreter := { i with taken }

/-- It matters to a task what becomes of memory. -/
def heeds (levels : Nat) (t : Task (List Value)) : Bool :=
  Machine.heeds (provision i.reading) stepLimit (.start i.world levels (.function explainValue) t)

/-- It matters to the setting of a global what becomes of memory. -/
def heedsSetting (name : String) (h : HostValue) : Bool :=
  let (v, w) := i.world.give h
  !(w.table w.globals).metatable.isNone && heeds { i with world := w } 1 (setting w name v)

@[simp]
theorem world_having : (i.having taken).world = i.world := rfl

theorem run_having {levels : Nat} {t : Task (List Value)} (ht : i.heeds levels t = false) :
    (i.having taken).run levels t = ((i.run levels t).1, (i.run levels t).2.having taken) := by
  have hrun : Machine.run (provision (i.having taken).reading) stepLimit
      (.start i.world levels (.function explainValue) t) =
        Machine.run (provision i.reading) stepLimit (.start i.world levels (.function explainValue) t) :=
    Machine.run_withMemory (provision i.reading) _ _ ht
  unfold run
  rw [world_having, hrun]
  split
  · split <;> rfl
  · split <;> rfl
  · rfl

theorem load_having (name : String) (text : Bytes) :
    ∃ taken', (i.having taken).load name text = ((i.load name text).1, (i.load name text).2.having taken') := by
  simp only [load]
  split
  · exact ⟨taken, rfl⟩
  · rw [world_having]
    split <;> exact ⟨taken + Chunk.weight text, rfl⟩

theorem setGlobal_having {name : String} {h : HostValue} (ht : i.heedsSetting name h = false) :
    (i.having taken).setGlobal name h = ((i.setGlobal name h).1, (i.setGlobal name h).2.having taken) := by
  simp only [heedsSetting, Bool.and_eq_false_iff, Bool.not_eq_false'] at ht
  simp only [setGlobal]
  rw [world_having]
  split
  · rfl
  · next hplain =>
    have hrun := run_having { i with world := (i.world.give h).2 } taken (ht.resolve_left hplain)
    have hsame : { i.having taken with world := (i.world.give h).2 } =
      having { i with world := (i.world.give h).2 } taken := rfl
    rw [hsame, hrun]
    rcases run _ 1 _ with ⟨_ | _ | _, j⟩ <;> rfl

/-- A chunk that cannot be loaded leaves the interpreter as it was, but for the memory that its reading has taken. -/
theorem exists_having_of_load_error {j : Interpreter} {name : String} {text : Bytes} {e : ScriptError}
    (h : i.load name text = (.error e, j)) : ∃ taken, j = i.having taken := by
  unfold load at h
  split at h
  · cases h
    exact ⟨i.taken, rfl⟩
  · split at h <;> cases h <;> exact ⟨_, rfl⟩

end Interpreter
end Lua

namespace Host
variable (h : Host)

/-- It matters to a request what becomes of memory. -/
def heeds : Request → Bool
  | .bindGlobal name =>
    match h.interpreter, h.stack with
    | some i, v :: _ => i.heedsSetting name v
    | _, _ => false
  | .run r =>
    match h.interpreter, h.chunk? r with
    | some i, some (source, _) =>
      match i.load h.config.chunkName source with
      | (.ok function, i) => i.takeEvents.2.heeds 0 (.call (.function function) [])
      | (.error _, _) => false
    | _, _ => false
  | _ => false

/-- Something is to happen in the interpreter when memory is reclaimed. -/
def watches : Bool := h.interpreter.any (·.world.watches)

/-- It matters to one of the requests what becomes of memory, or to what is to happen by then when memory is reclaimed. -/
def heedsAny : Host → List Request → Bool
  | h, [] => h.watches
  | h, request :: rest => h.watches || h.heeds request || heedsAny (h.answer request).2 rest

variable (taken : Nat)

/-- The host with another amount of memory taken by the reading of chunks. -/
def having : Host := { h with interpreter := h.interpreter.map (·.having taken) }

@[simp]
theorem stack_having : (h.having taken).stack = h.stack := rfl

theorem textOf?_having (v : Lua.HostValue) : (h.having taken).textOf? v = h.textOf? v := by
  cases v <;> simp [textOf?, having]

theorem numberOf?_having (v : Lua.HostValue) : (h.having taken).numberOf? v = h.numberOf? v := by
  cases v <;> simp [numberOf?, having]

theorem chunk?_having (r : Run) : (h.having taken).chunk? r = h.chunk? r := by
  cases r <;> rfl

theorem display_having (r : Run) : (h.having taken).display r = h.display r := by
  rw [display, display, chunk?_having]

theorem unlessFunction_having (g : Host) (v : Lua.HostValue) (reply : Reply) :
    (h.having taken).unlessFunction v reply (g.having taken) =
      ((h.unlessFunction v reply g).1, (h.unlessFunction v reply g).2.having taken) := by
  unfold unlessFunction
  split <;> rfl

theorem conclude_having (r : Run) (display : String) (verdict : Verdict) :
    (h.having taken).conclude r display verdict =
      ((h.conclude r display verdict).1, (h.conclude r display verdict).2.having taken) := by
  cases verdict with
  | error phase e =>
    simp only [conclude]
    split <;> rfl
  | panic payload => rfl
  | results values =>
    simp only [conclude]
    generalize values.headD .nil = v
    cases r with
    | script _ | file _ => rfl
    | expression _ => exact h.unlessFunction_having taken (h.withStack (v :: h.stack)) v _
    | truth _ => exact h.unlessFunction_having taken h v _
    | number _ =>
      simp only [accept, numberOf?_having]
      exact h.unlessFunction_having taken h v _
    | text text =>
      simp only [accept, textOf?_having, ← unlessFunction_having]
      split <;> rfl

variable {h}

theorem interpreter_having {i : Lua.Interpreter} (hi : h.interpreter = some i) :
    (h.having taken).interpreter = some (i.having taken) := by
  rw [having, hi, Option.map_some]

theorem no_interpreter_having (hi : h.interpreter = none) : (h.having taken).interpreter = none := by
  rw [having, hi, Option.map_none]

/-- The verdict on a chunk is the same if the chunk does not heed memory, and so is all that it leaves. -/
theorem judge_having {i : Lua.Interpreter} (hi : h.interpreter = some i) {r : Run} {source : Bytes} {shown : String}
    (hc : h.chunk? r = some (source, shown)) (hr : h.heeds (.run r) = false) :
    ∃ taken', (h.having taken).judge (i.having taken) source =
      ((h.judge i source).1, (h.judge i source).2.having taken') := by
  obtain ⟨taken', hload⟩ := i.load_having taken h.config.chunkName source
  have hname : (h.having taken).config.chunkName = h.config.chunkName := rfl
  refine ⟨taken', ?_⟩
  simp only [heeds, hi, hc] at hr
  simp only [judge, hname, hload]
  rcases hl : i.load h.config.chunkName source with ⟨e | function, j⟩
  · rfl
  · simp only [hl] at hr
    have hcall : (j.having taken').takeEvents.2.call function =
        ((j.takeEvents.2.call function).1, (j.takeEvents.2.call function).2.having taken') :=
      Lua.Interpreter.run_having _ _ hr
    simp only [hcall]
    rcases j.takeEvents.2.call function with ⟨values | e | payload, j'⟩ <;> rfl

theorem verdict?_having {r : Run} (hr : h.heeds (.run r) = false) :
    (h.having taken).verdict? r = h.verdict? r := by
  cases hi : h.interpreter with
  | none => simp [verdict?, having, hi]
  | some i =>
    cases hc : h.chunk? r with
    | none => simp [verdict?, chunk?_having, hc]
    | some chunk =>
      obtain ⟨taken', hjudge⟩ := judge_having taken hi hc hr
      simp only [verdict?, hi, interpreter_having taken hi, chunk?_having, hc, hjudge]

theorem judged_having {r : Run} (hr : h.heeds (.run r) = false) :
    ∃ taken', (h.having taken).judged r = (h.judged r).having taken' := by
  cases hi : h.interpreter with
  | none => exact ⟨taken, by simp [judged, having, hi]⟩
  | some i =>
    cases hc : h.chunk? r with
    | none => exact ⟨taken, by simp [judged, chunk?_having, hc]⟩
    | some chunk =>
      obtain ⟨taken', hjudge⟩ := judge_having taken hi hc hr
      exact ⟨taken', by simp only [judged, hi, interpreter_having taken hi, chunk?_having, hc, hjudge]⟩

theorem answer_run_having {r : Run} (hr : h.heeds (.run r) = false) :
    ∃ taken', (h.having taken).answer (.run r) =
      ((h.answer (.run r)).1, (h.answer (.run r)).2.having taken') := by
  have hverdict := verdict?_having taken hr
  cases hv : h.verdict? r with
  | none =>
    obtain ⟨path, e, rfl, hf⟩ | ⟨hi, hc⟩ := missing_of_verdict?_none hv
    · have hf' : (h.having taken).files path = .error e := hf
      rw [answer_unread hf, answer_unread hf']
      exact ⟨taken, rfl⟩
    · rw [answer_run_uninitialized hi hc,
        answer_run_uninitialized (no_interpreter_having taken hi) (by rwa [chunk?_having])]
      exact ⟨taken, rfl⟩
  | some verdict =>
    obtain ⟨taken', hjudged⟩ := judged_having taken hr
    rw [answer_run hv, answer_run (hverdict.trans hv), hjudged, display_having, conclude_having]
    exact ⟨taken', rfl⟩

theorem answer_bindGlobal_having {name : String} (hr : h.heeds (.bindGlobal name) = false) :
    (h.having taken).answer (.bindGlobal name) =
      ((h.answer (.bindGlobal name)).1, (h.answer (.bindGlobal name)).2.having taken) := by
  rcases hs : h.stack with _ | ⟨v, rest⟩
  · rw [answer_bindGlobal_nil h hs, answer_bindGlobal_nil _ ((h.stack_having taken).trans hs)]
  cases hi : h.interpreter with
  | none =>
    rw [answer_bindGlobal_none h hi hs,
      answer_bindGlobal_none _ (no_interpreter_having taken hi) ((h.stack_having taken).trans hs)]
    rfl
  | some i =>
    simp only [heeds, hi, hs] at hr
    rw [answer_bindGlobal_cons h hi hs,
      answer_bindGlobal_cons _ (interpreter_having taken hi) ((h.stack_having taken).trans hs),
      i.setGlobal_having taken hr]
    rcases i.setGlobal name v with ⟨_ | e | payload, j⟩ <;> rfl

/-- The same comes of a request that does not heed memory, however much of it has been taken. -/
theorem answer_having {request : Request} (hr : h.heeds request = false) :
    ∃ taken', (h.having taken).answer request = ((h.answer request).1, (h.answer request).2.having taken') := by
  cases request with
  | renew =>
    have hsome : (h.having taken).interpreter.isSome = h.interpreter.isSome := Option.isSome_map
    rw [answer_renew, answer_renew, renewed, hsome]
    exact ⟨h.renewal.taken, rfl⟩
  | pushInteger _ | pushNumber _ | pushBoolean _ | pushPointer _ => exact ⟨taken, rfl⟩
  | pushString text =>
    rw [answer_pushString, answer_pushString]
    cases hi : h.interpreter <;> exact ⟨taken, by simp [having, hi, withStack]⟩
  | popString =>
    rcases hs : h.stack with _ | ⟨v, rest⟩
    · rw [answer_popString_nil h hs, answer_popString_nil _ ((h.stack_having taken).trans hs)]
      exact ⟨taken, rfl⟩
    · rw [answer_popString_cons h hs, answer_popString_cons _ ((h.stack_having taken).trans hs), textOf?_having]
      refine ⟨taken, ?_⟩
      split
      · split <;> rfl
      · rfl
  | peekInteger position =>
    simp only [answer, perform, carryOut_bind, carryOut_get, carryOut_pure, peekInteger, numberOf?_having]
    exact ⟨taken, rfl⟩
  | bindGlobal name => exact ⟨taken, answer_bindGlobal_having taken hr⟩
  | run r => exact answer_run_having taken hr

theorem complaint?_having {request : Request} (hr : h.heeds request = false) :
    (h.having taken).complaint? request = h.complaint? request := by
  cases request with
  | run r =>
    simp only [complaint?, verdict?_having taken hr, display_having]
    rfl
  | _ => rfl

/-- The same comes of requests that do not heed memory, one after the other. -/
theorem after_having {requests : List Request} (hr : h.heedsAny requests = false) :
    (h.having taken).transcript requests = h.transcript requests ∧
      ∃ taken', (h.having taken).after requests = (h.after requests).having taken' := by
  induction requests generalizing h taken with
  | nil => exact ⟨rfl, taken, rfl⟩
  | cons request rest ih =>
    simp only [heedsAny, Bool.or_eq_false_iff] at hr
    obtain ⟨⟨-, hfirst⟩, hrest⟩ := hr
    obtain ⟨taken', hanswer⟩ := answer_having taken hfirst
    obtain ⟨htranscript, hafter⟩ := ih taken' hrest
    simp only [transcript, after, hanswer, htranscript, complaint?_having taken hfirst]
    exact ⟨rfl, hafter⟩

end Host
end ScriptHost
