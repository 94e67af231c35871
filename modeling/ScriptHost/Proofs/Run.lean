import ScriptHost.Proofs.Verdict
/-! The six ways to run a chunk. Each does with the verdict on its chunk what `conclude` says. -/
namespace ScriptHost
open Text (Bytes)

/-- What a run replies when its chunk has an error. -/
def Run.failure : Run → Reply
  | .script _ | .file _ | .expression _ | .truth _ => .truth false
  | .number _ => .number 0.0
  | .text _ => .textOrNone none

/-- Whether a value is a function. -/
def Lua.HostValue.isFunction : Lua.HostValue → Bool
  | .function _ => true
  | _ => false

namespace Host
variable (h : Host)

/-- The bytes of a chunk, and the text by which reports quote it; none if its file cannot be read. -/
def chunk? : Run → Option (Bytes × String)
  | .script text => some (text.toUTF8, text)
  | .file path =>
    match h.files path with
    | .ok script => some (script, Text.decodeLossy script)
    | .error _ => none
  | .expression text | .truth text | .number text | .text text =>
    some (("return " ++ h.prepared text).toUTF8, h.prepared text)

/-- A reply to a value that is no function. -/
def unlessFunction (v : Lua.HostValue) (reply : Reply) (h' : Host) : Except Interruption Reply × Host :=
  if v.isFunction then (.error (.failed .functionResult), h) else (.ok reply, h')

/-- What a run makes of the first result of its chunk. -/
def accept (v : Lua.HostValue) : Run → Except Interruption Reply × Host
  | .script _ | .file _ => (.ok (.truth true), h)
  | .expression _ => h.unlessFunction v (.truth true) (h.withStack (v :: h.stack))
  | .truth _ => h.unlessFunction v (.truth v.isTrue) h
  | .number _ => h.unlessFunction v (.number ((h.numberOf? v).getD 0.0)) h
  | .text text =>
    h.unlessFunction v (.textOrNone (h.textOf? v))
      (if (h.textOf? v).isSome then h else h.noted (.notText text v.kindName))

/-- What a run makes of the verdict on its chunk. -/
def conclude (r : Run) (display : String) : Verdict → Except Interruption Reply × Host
  | .error phase e =>
    if e.isFatal then (.error (.failed (.fatal e.message)), h.noted (.fatalError e.message))
    else (.ok r.failure, h.reporting (h.complaint phase display e))
  | .panic payload =>
    (.error (.failed (.panic payload.report)), h.noted (.panicCaptured payload.report))
  | .results values => h.accept (values.headD .nil) r

/-- Whatever becomes of results, it shows in the stack and in notes at most. -/
theorem conclude_results (r : Run) (display : String) (values : List Lua.HostValue) :
    ∃ stack notes, (∀ note ∈ notes, note.fields = []) ∧
      (h.conclude r display (.results values)).2 = { h with stack, log := notes ++ h.log } := by
  simp only [conclude]
  generalize values.headD .nil = v
  have same : ∃ stack notes, (∀ note ∈ notes, note.fields = []) ∧
      h = { h with stack, log := notes ++ h.log } := ⟨h.stack, [], by simp, rfl⟩
  cases r with
  | script _ | file _ => exact same
  | expression _ =>
    simp only [accept, unlessFunction]
    split
    · exact same
    · exact ⟨v :: h.stack, [], by simp, rfl⟩
  | truth _ | number _ =>
    simp only [accept, unlessFunction]
    split <;> exact same
  | text text =>
    simp only [accept, unlessFunction]
    split
    · exact same
    · split
      · exact same
      · exact ⟨h.stack, [.notText text v.kindName], by simp [LogEvent.notText], rfl⟩

variable {h} {i : Lua.Interpreter}

/-- Judging a chunk changes the interpreter and the log and nothing else. -/
theorem judge_frame (i : Lua.Interpreter) (source : Bytes) :
    ∃ j log, (h.judge i source).2 = { h with interpreter := some j, log } := by
  unfold judge
  split
  · exact ⟨_, _, rfl⟩
  · split <;> exact ⟨_, _, rfl⟩

/-- What follows a chunk that is run for its effects. -/
private theorem runChunk_then (hi : h.interpreter = some i) {r : Run} (source : Bytes) (display : String)
    {k : Bool → Operation Reply} (failure : ∀ h', carryOut h' (k false) = (.ok r.failure, h'))
    (success : ∀ h' v, carryOut h' (k true) = h'.accept v r) :
    h.carryOut (runChunk false source display >>= k) =
      (h.judge i source).2.conclude r display (h.judge i source).1 := by
  rw [carryOut_bind, carryOut_runChunk hi]
  rcases h.judge i source with ⟨⟨phase, e⟩ | payload | values, h'⟩
  · by_cases he : e.isFatal <;> simp [settle, conclude, he, failure]
  · rfl
  · exact success h' _

/-- What follows an expression. It finds the result on top of the stack, unless that is a function. -/
private theorem runExpression_then (hi : h.interpreter = some i) {r : Run} (text : String)
    {k : Bool → Operation Reply} (failure : ∀ h', carryOut h' (k false) = (.ok r.failure, h'))
    (function : ∀ (h' : Host) v, v.isFunction →
      h'.accept v r = (.error (.failed .functionResult), h'))
    (success : ∀ (h' : Host) v, v.isFunction = false →
      (h'.withStack (v :: h'.stack)).carryOut (k true) = h'.accept v r) :
    h.carryOut (runExpression text >>= k) =
      (h.judge i ("return " ++ h.prepared text).toUTF8).2.conclude r (h.prepared text)
        (h.judge i ("return " ++ h.prepared text).toUTF8).1 := by
  simp only [runExpression, carryOut_bind, carryOut_get, carryOut_runChunk hi]
  rcases h.judge i ("return " ++ h.prepared text).toUTF8 with ⟨⟨phase, e⟩ | payload | values, h'⟩
  · by_cases he : e.isFatal <;> simp [settle, conclude, he, failure]
  · rfl
  · simp only [settle, if_true, carryOut_bind, carryOut_get, conclude]
    generalize values.headD .nil = v
    cases v with
    | function place => exact (function h' _ rfl).symm
    | _ => exact success h' _ rfl

/-- Every run does with the verdict on its chunk what `conclude` says. -/
theorem carryOut_runFor (hi : h.interpreter = some i) {r : Run} {source : Bytes} {display : String}
    (hc : h.chunk? r = some (source, display)) :
    h.carryOut (runFor r) =
      (h.judge i source).2.conclude r display (h.judge i source).1 := by
  cases r with
  | script text =>
    cases hc
    exact runChunk_then hi _ _ (fun _ => rfl) fun _ _ => rfl
  | file path =>
    rcases hf : h.files path with e | script
    · simp [chunk?, hf] at hc
    · obtain ⟨rfl, rfl⟩ : script = source ∧ Text.decodeLossy script = display := by
        simpa [chunk?, hf] using hc
      simp only [runFor, runScriptFile, carryOut_bind, carryOut_get, hf]
      rw [← carryOut_bind]
      exact runChunk_then hi _ _ (fun _ => rfl) fun _ _ => rfl
  | expression text =>
    cases hc
    refine runExpression_then hi text (fun _ => rfl) (fun _ _ hv => ?_) fun _ _ hv => ?_ <;>
      simp [accept, unlessFunction, hv]
  | truth text =>
    cases hc
    simp only [runFor, runExpressionBool, bind_assoc]
    refine runExpression_then hi text (fun _ => rfl) (fun _ _ hv => ?_) fun _ _ hv => ?_ <;>
      simp [accept, unlessFunction, hv]
  | number text =>
    cases hc
    simp only [runFor, runExpressionFloat, bind_assoc]
    refine runExpression_then hi text (fun _ => rfl) (fun _ _ hv => ?_) fun _ _ hv => ?_ <;>
      simp [accept, unlessFunction, hv]
  | text text =>
    cases hc
    simp only [runFor, runExpressionString, bind_assoc]
    refine runExpression_then hi text (fun _ => rfl) (fun _ _ hv => ?_) fun h' v hv => ?_
    · simp [accept, unlessFunction, hv]
    · rcases ht : h'.textOf? v with _ | text' <;> simp [accept, unlessFunction, hv, ht]

variable (h)

/-- The verdict on the chunk of a run; none if its file cannot be read or there is no interpreter. -/
def verdict? (r : Run) : Option Verdict :=
  match h.interpreter, h.chunk? r with
  | some i, some (source, _) => some (h.judge i source).1
  | _, _ => none

/-- The host with its interpreter as the chunk of a run leaves it. -/
def judged (r : Run) : Host :=
  match h.interpreter, h.chunk? r with
  | some i, some (source, _) => (h.judge i source).2
  | _, _ => h

/-- The text by which reports quote the chunk of a run. -/
def display (r : Run) : String := ((h.chunk? r).map (·.2)).getD ""

variable {h}

/-- Whatever a run does, it does after the interpreter is done with its chunk. -/
theorem judged_frame (r : Run) :
    ∃ interpreter log, h.judged r = { h with interpreter, log } ∧
      (h.interpreter.isSome → interpreter.isSome) := by
  unfold judged
  split
  · obtain ⟨j, log, hj⟩ := judge_frame (h := h) _ _
    exact ⟨_, _, hj, fun _ => rfl⟩
  · exact ⟨_, _, rfl, id⟩

theorem judged_of_none {r : Run} (hv : h.verdict? r = none) : h.judged r = h := by
  unfold judged
  split
  · next hi hc => simp [verdict?, hi, hc] at hv
  · rfl

/-- The answer to a run whose chunk has a verdict. -/
theorem answer_run {r : Run} {verdict : Verdict} (hv : h.verdict? r = some verdict) :
    h.answer (.run r) = (h.judged r).conclude r (h.display r) verdict := by
  unfold verdict? at hv
  split at hv
  next i source shown hi hc =>
    cases hv
    simp only [answer, perform, carryOut_runFor hi hc, judged, display, hi, hc, Option.map_some,
      Option.getD_some]
  next => cases hv

/-- The note about a file that cannot be read. -/
def unread (path : String) : FileError → LogEvent
  | .other text => .scriptNotRead path (FileError.other text).message
  | e => .scriptNotOpened path e.message

private theorem fields_unread (path : String) (e : FileError) : (unread path e).fields = [] := by
  cases e <;> rfl

/-- A file that cannot be read is not a failure of its run. -/
theorem answer_unread {path : String} {e : FileError} (hf : h.files path = .error e) :
    h.answer (.run (.file path)) = (.ok (.truth false), h.noted (unread path e)) := by
  cases e <;> simp [answer, perform, runFor, runScriptFile, hf, unread]

/-- Only the chunk of a file can be missing, and then the file cannot be read. -/
theorem missing_of_verdict?_none {r : Run} (hv : h.verdict? r = none) :
    (∃ path e, r = .file path ∧ h.files path = .error e) ∨ h.interpreter = none ∧ (h.chunk? r).isSome := by
  cases hc : h.chunk? r with
  | none =>
    left
    cases r with
    | file path =>
      rcases hf : h.files path with e | script
      · exact ⟨path, e, rfl, hf⟩
      · simp [chunk?, hf] at hc
    | _ => cases hc
  | some chunk =>
    right
    cases hi : h.interpreter with
    | none => exact ⟨rfl, rfl⟩
    | some i => simp [verdict?, hi, hc] at hv

theorem unread_of_verdict?_none {i : Lua.Interpreter} (hi : h.interpreter = some i) {r : Run}
    (hv : h.verdict? r = none) : ∃ path e, r = .file path ∧ h.files path = .error e := by
  obtain hunread | ⟨hnone, -⟩ := missing_of_verdict?_none hv
  · exact hunread
  · rw [hi] at hnone
    cases hnone

/-- Without an interpreter no chunk is run. -/
theorem answer_run_uninitialized (hi : h.interpreter = none) {r : Run} (hc : (h.chunk? r).isSome) :
    h.answer (.run r) = (.error (.failed (.initialization "Lua instance is not initialized")), h) := by
  cases r with
  | file path =>
    rcases hf : h.files path with e | script
    · simp [chunk?, hf] at hc
    · simp [answer, perform, runFor, runScriptFile, hf, runChunk, load, carryOut_current_none _ hi]
  | _ =>
    simp [answer, perform, runFor, runScript, runExpression, runExpressionBool, runExpressionFloat,
      runExpressionString, runChunk, load, carryOut_current_none _ hi]

/-- Without a verdict nothing changes but the log. -/
theorem answer_run_none {r : Run} (hv : h.verdict? r = none) :
    h.answer (.run r) =
        (.error (.failed (.initialization "Lua instance is not initialized")), h) ∨
      ∃ event, event.fields = [] ∧ h.answer (.run r) = (.ok (.truth false), h.noted event) := by
  obtain ⟨path, e, rfl, hf⟩ | ⟨hi, hc⟩ := missing_of_verdict?_none hv
  · exact .inr ⟨_, fields_unread path e, answer_unread hf⟩
  · exact .inl (answer_run_uninitialized hi hc)

end Host
end ScriptHost
