import ScriptHost.Session
/-! How the operations of a host are carried out, one equation for each. -/
namespace ScriptHost.Host
open Text (Bytes)
variable {α β : Type} (h : Host)

@[simp] theorem carryOut_pure (a : α) : h.carryOut (pure a) = (.ok a, h) := rfl

/-- After an operation that ends early nothing else is done. -/
@[simp] theorem carryOut_bind (x : Operation α) (f : α → Operation β) :
    h.carryOut (x >>= f) = match h.carryOut x with
      | (.ok a, h') => h'.carryOut (f a)
      | (.error e, h') => (.error e, h') := by
  simp only [carryOut, ExceptT.run, bind, ExceptT.bind, ExceptT.mk, StateT.bind]
  rcases x h with ⟨e | a, h'⟩ <;> rfl

@[simp] theorem carryOut_map (f : α → β) (x : Operation α) :
    h.carryOut (f <$> x) = match h.carryOut x with
      | (.ok a, h') => (.ok (f a), h')
      | (.error e, h') => (.error e, h') := by
  simp only [carryOut, ExceptT.run, Functor.map, ExceptT.map, ExceptT.mk, bind, StateT.bind]
  rcases x h with ⟨e | a, h'⟩ <;> rfl

@[simp] theorem carryOut_get : h.carryOut get = (.ok h, h) := rfl

@[simp] theorem carryOut_set (h' : Host) : h.carryOut (set h') = (.ok ⟨⟩, h') := rfl

@[simp] theorem carryOut_modify (f : Host → Host) : h.carryOut (modify f) = (.ok ⟨⟩, f h) := rfl

@[simp] theorem carryOut_throw (e : Interruption) :
    h.carryOut (throw e : Operation α) = (.error e, h) := rfl

@[simp] theorem carryOut_tryCatch (x : Operation α) (f : Interruption → Operation α) :
    h.carryOut (tryCatch x f) = match h.carryOut x with
      | (.ok a, h') => (.ok a, h')
      | (.error e, h') => h'.carryOut (f e) := by
  simp only [carryOut, ExceptT.run, tryCatch, tryCatchThe, MonadExceptOf.tryCatch, ExceptT.tryCatch,
    ExceptT.mk, bind, StateT.bind]
  rcases x h with ⟨e | a, h'⟩ <;> rfl

@[simp] theorem carryOut_failWith (e : HostError) :
    h.carryOut (failWith e : Operation α) = (.error (.failed e), h) := rfl

@[simp] theorem carryOut_unwind (payload : Lua.PanicPayload) :
    h.carryOut (unwind payload : Operation α) = (.error (.unwound payload), h) := rfl

@[simp] theorem carryOut_note (event : LogEvent) :
    h.carryOut (note event) = (.ok ⟨⟩, h.noted event) := rfl

@[simp] theorem carryOut_keep (i : Lua.Interpreter) : h.carryOut (keep i) = (.ok ⟨⟩, h.keeping i) := rfl

@[simp] theorem carryOut_push (v : Lua.HostValue) :
    h.carryOut (push v) = (.ok ⟨⟩, h.withStack (v :: h.stack)) := rfl

@[simp] theorem carryOut_escalate (e : Lua.ScriptError) :
    h.carryOut (escalate e : Operation α) =
      (.error (.failed (.fatal e.message)), h.noted (.fatalError e.message)) := by
  simp [escalate]

@[simp] theorem carryOut_report (phase : Phase) (display : String) (e : Lua.ScriptError) :
    h.carryOut (report phase display e) = (.ok ⟨⟩, h.reporting (h.complaint phase display e)) := rfl

@[simp] theorem carryOut_truncate (depth : Nat) :
    h.carryOut (truncate depth) = (.ok ⟨⟩, h.withStack (h.stack.drop (h.depth - depth))) := rfl

@[simp] theorem carryOut_pop_cons (v : Lua.HostValue) (rest : List Lua.HostValue) :
    (h.withStack (v :: rest)).carryOut pop = (.ok v, h.withStack rest) := rfl

theorem carryOut_current {i : Lua.Interpreter} (hi : h.interpreter = some i) :
    h.carryOut current = (.ok i, h) := by
  simp [current, hi]

theorem carryOut_current_none (hi : h.interpreter = none) :
    h.carryOut current =
      (.error (.failed (.initialization "Lua instance is not initialized")), h) := by
  simp [current, hi]

/-- The interpreter is kept as it is after its work even if the work ends in a panic. -/
theorem carryOut_enter {i : Lua.Interpreter} (hi : h.interpreter = some i)
    (work : Lua.Interpreter → Lua.Answer α × Lua.Interpreter) :
    h.carryOut (enter work) = match work i with
      | (.ok a, i') => (.ok (.ok a), h.keeping i')
      | (.error e, i') => (.ok (.error e), h.keeping i')
      | (.panic payload, i') => (.error (.unwound payload), h.keeping i') := by
  rcases hw : work i with ⟨answer, i'⟩
  cases answer <;> simp [enter, carryOut_current h hi, hw]

/-- No panic leaves what is guarded. -/
theorem carryOut_guarded (x : Operation α) :
    h.carryOut (guarded x) = match h.carryOut x with
      | (.error (.unwound payload), h') =>
        (.error (.failed (.panic payload.report)), h'.noted (.panicCaptured payload.report))
      | outcome => outcome := by
  rcases hx : h.carryOut x with ⟨(e | payload) | a, h'⟩ <;> simp [guarded, hx]

end ScriptHost.Host
