import ScriptHost.Proofs.Globals
import ScriptHost.Proofs.Operation
/-! New interpreters. Their globals have no metatable, so that no function runs while the functions of the host
become globals, and a renewal never fails. -/
namespace ScriptHost
open Text (Bytes)

namespace Registry

/-- Functions become globals one after the other, and nothing goes wrong. -/
theorem bindAll_open (functions : List NativeFunction) (bound : Nat) {i : Lua.Interpreter}
    (hi : i.world.OpenGlobals) :
    ∃ j, bindAll functions bound i = (.ok (bound + functions.length), j) ∧ j.world.OpenGlobals := by
  induction functions generalizing bound i with
  | nil => exact ⟨i, rfl, hi⟩
  | cons f rest ih =>
    have hadd : (i.addFunction f.function).2.world.OpenGlobals := hi.of_tables rfl rfl
    obtain ⟨j, hset, hj, -⟩ :=
      Lua.Interpreter.setGlobal_of_open hadd f.name (.function (i.addFunction f.function).1)
    obtain ⟨k, hall, hk⟩ := ih (bound + 1) hj
    refine ⟨k, ?_, hk⟩
    simp only [bindAll, hset, hall, List.length_cons, Nat.add_assoc, Nat.add_comm 1]

end Registry

namespace Host
variable (h : Host)

/-- The new interpreter of a renewal. -/
def renewal : Lua.Interpreter := (h.registry.bindInto h.fresh).2

theorem openGlobals_fresh : h.fresh.world.OpenGlobals :=
  (Lua.World.openGlobals_ofLibraries h.config.libraries).of_tables rfl rfl

/-- Every registered function becomes a global of a new interpreter. -/
theorem bindInto_fresh :
    h.registry.bindInto h.fresh = (.ok h.registry.size, h.renewal) ∧ h.renewal.world.OpenGlobals := by
  obtain ⟨j, hall, hj⟩ := Registry.bindAll_open h.registry.entries 0 h.openGlobals_fresh
  rw [Nat.zero_add] at hall
  have hr : h.renewal = j := congrArg Prod.snd hall
  exact ⟨hr ▸ hall, hr ▸ hj⟩

/-- The host after its interpreter has been closed, if there was one. -/
def closing : Host := if h.interpreter.isSome then h.closed.noted (.instanceClosed h.generation) else h

theorem closing_frame :
    h.closing.interpreter = none ∧ h.closing.generation = h.generation ∧
      (h.closing.stack = [] ∨ h.interpreter = none ∧ h.closing.stack = h.stack) := by
  unfold closing
  cases hi : h.interpreter with
  | none => exact ⟨hi, rfl, .inr ⟨rfl, rfl⟩⟩
  | some i => exact ⟨rfl, rfl, .inl rfl⟩

/-- What comes of a renewal if no interpreter can be made, or if it cannot be given its functions. -/
theorem carryOut_createFrom (made : Lua.Answer Lua.Interpreter)
    (bind : Lua.Interpreter → Lua.Answer Nat × Lua.Interpreter) :
    h.carryOut (createFrom made bind) = match made with
      | .ok i =>
        match bind i with
        | (.ok bound, i) =>
          (.ok (), ((h.closing.withStack []).installed i).noted (.instanceInitialized (h.generation + 1) bound))
        | (.error e, _) => (h.closing.withStack []).carryOut
          (if e.isFatal then escalate e else failWith (.initialization e.message))
        | (.panic payload, _) => (.error (.unwound payload), h.closing.withStack [])
      | .error e => (.error (.failed (.initialization e.message)), h.closing)
      | .panic payload => (.error (.unwound payload), h.closing) := by
  cases hi : h.interpreter <;> rcases made with i | e | payload
  case none.ok | some.ok => rcases hb : bind i with ⟨n | e | payload, j⟩ <;> simp [createFrom, closing, hi, hb]
  all_goals simp [createFrom, closing, hi]

/-- The host after a renewal. -/
def renewed : Host :=
  { h with
    interpreter := some h.renewal
    stack := []
    generation := h.generation + 1
    log := .instanceInitialized (h.generation + 1) h.registry.size ::
      ((if h.interpreter.isSome then [.instanceClosed h.generation] else []) ++ h.log) }

/-- A renewal never fails. -/
theorem carryOut_renew : h.carryOut renew = (.ok (), h.renewed) := by
  have hb := h.bindInto_fresh.1
  cases hi : h.interpreter <;>
    simp [renew, carryOut_guarded, createInstance, carryOut_createFrom, hb, closing, hi, closed, installed, renewed,
      withStack, noted]

/-- A host starts unless its configuration is refused. -/
theorem start_eq : h.start = match h.config.validate with
    | .error e => (.error (.failed (.config e)), h)
    | .ok () => (.ok (), h.renewed) := by
  rcases hv : h.config.validate with e | _ <;> simp only [start, hv, carryOut_renew]

/-- A host that has started has been renewed. -/
theorem renewed_of_start {h' : Host} (hs : h.start = (.ok (), h')) :
    h.config.validate = .ok () ∧ h' = h.renewed := by
  rw [start_eq] at hs
  cases hv : h.config.validate with
  | error e => simp [hv] at hs
  | ok _ =>
    rw [hv] at hs
    cases hs
    exact ⟨rfl, rfl⟩

end Host
end ScriptHost
