import ScriptHost.Proofs.Operation
/-! What an interpreter makes of a chunk, and what a host makes of that. Loading puts the chunk on the stack
and calling takes it away, so that between two operations only the verdict shows. -/
namespace ScriptHost
open Text (Bytes)

/-- What an interpreter makes of a chunk. -/
inductive Verdict where
  /-- The chunk does not load, or its call fails. -/
  | error (phase : Phase) (e : Lua.ScriptError)
  /-- A panic ends the call. -/
  | panic (payload : Lua.PanicPayload)
  | results (values : List Lua.HostValue)

namespace Host
variable (h : Host)

/-- The verdict of an interpreter on a chunk, and the host with the interpreter as it is then. -/
def judge (i : Lua.Interpreter) (source : Bytes) : Verdict × Host :=
  match i.load h.config.chunkName source with
  | (.error e, i) => (.error .parsing e, h.keeping i)
  | (.ok function, i) =>
    match i.takeEvents.2.call function with
    | (.error e, j) => (.error .evaluating e, (h.keeping i).keeping j)
    | (.panic payload, j) => (.panic payload, (h.keeping i).keeping j)
    | (.ok values, j) => (.results values, (h.keeping i).keeping j)

/-- What a host does about a verdict. -/
def settle (wantResult : Bool) (display : String) : Verdict → Except Interruption Bool × Host
  | .error phase e =>
    if e.isFatal then (.error (.failed (.fatal e.message)), h.noted (.fatalError e.message))
    else (.ok false, h.reporting (h.complaint phase display e))
  | .panic payload =>
    (.error (.failed (.panic payload.report)), h.noted (.panicCaptured payload.report))
  | .results values =>
    (.ok true, if wantResult then h.withStack (values.headD .nil :: h.stack) else h)

@[simp] theorem withStack_stack : h.withStack h.stack = h := rfl

@[simp] theorem stack_withStack (s : List Lua.HostValue) : (h.withStack s).stack = s := rfl

@[simp] theorem withStack_withStack (s t : List Lua.HostValue) :
    (h.withStack s).withStack t = h.withStack t := rfl

@[simp] theorem stack_keeping (i : Lua.Interpreter) : (h.keeping i).stack = h.stack := rfl

@[simp] theorem stack_noted (event : LogEvent) : (h.noted event).stack = h.stack := rfl

@[simp] theorem stack_reporting (d : Diagnostic) : (h.reporting d).stack = h.stack := rfl

@[simp] theorem withStack_keeping (s : List Lua.HostValue) (i : Lua.Interpreter) :
    (h.withStack s).keeping i = (h.keeping i).withStack s := rfl

@[simp] theorem withStack_noted (s : List Lua.HostValue) (event : LogEvent) :
    (h.withStack s).noted event = (h.noted event).withStack s := rfl

variable {h} {i : Lua.Interpreter}

/-- A chunk that loads is on top of the stack. -/
theorem carryOut_load (hi : h.interpreter = some i) (source : Bytes) (display : String) :
    h.carryOut (load source display) = match i.load h.config.chunkName source with
      | (.ok function, i) => (.ok true, (h.keeping i).withStack (.function function :: h.stack))
      | (.error e, i) => (h.keeping i).settle false display (.error .parsing e) := by
  have hd : Source.Reader.drain { source } = source := rfl
  rcases hl : i.load h.config.chunkName source with ⟨e | function, j⟩
  · by_cases he : e.isFatal <;> simp [load, carryOut_current h hi, hd, hl, he, settle]
  · simp [load, carryOut_current h hi, hd, hl, expectDepth, depth]

/-- A chunk on top of the stack is called, and the values below it stay. -/
theorem carryOut_evaluate (hi : h.interpreter = some i) {function : Nat} {rest : List Lua.HostValue}
    (hs : h.stack = .function function :: rest) (wantResult : Bool) (display : String) :
    h.carryOut (evaluate wantResult display) =
      match i.call function with
      | (.ok values, j) => ((h.keeping j).withStack rest).settle wantResult display (.results values)
      | (.error e, j) => ((h.keeping j).withStack rest).settle wantResult display (.error .evaluating e)
      | (.panic payload, j) => ((h.keeping j).withStack rest).settle wantResult display (.panic payload) := by
  have hp : h.carryOut popChunk = (.ok function, h.withStack rest) := by simp [popChunk, hs]
  have hi' : (h.withStack rest).interpreter = some i := hi
  rcases hc : i.call function with ⟨values | e | payload, j⟩
  · cases wantResult <;>
      simp [evaluate, hp, carryOut_guarded, carryOut_enter _ hi', hc, settle, expectDepth, depth]
  · by_cases he : e.isFatal <;>
      simp [evaluate, hp, carryOut_guarded, carryOut_enter _ hi', hc, settle, he, depth]
  · simp [evaluate, hp, carryOut_guarded, carryOut_enter _ hi', hc, settle, depth]

/-- A chunk is run as the verdict on it wants. What was on the stack for the call is gone. -/
theorem carryOut_runChunk (hi : h.interpreter = some i) (wantResult : Bool) (source : Bytes)
    (display : String) :
    h.carryOut (runChunk wantResult source display) =
      (h.judge i source).2.settle wantResult display (h.judge i source).1 := by
  simp only [runChunk, carryOut_bind, carryOut_load hi]
  rcases hl : i.load h.config.chunkName source with ⟨e | function, i'⟩
  · by_cases he : e.isFatal <;> simp [judge, hl, settle, he]
  · have hr : ((h.keeping i').withStack (.function function :: h.stack)).interpreter =
      some i'.takeEvents.2 := rfl
    simp only [judge, hl, if_true, carryOut_evaluate hr rfl]
    rcases i'.takeEvents.2.call function with ⟨values | e | payload, j⟩ <;> rfl

end Host
end ScriptHost
