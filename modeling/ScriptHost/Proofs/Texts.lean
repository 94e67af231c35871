import ScriptHost.Proofs.ReturnedGlobal
import ScriptHost.Proofs.Stacking
/-! The texts that values have for the host. Whoever asks for the text of a value gets the same one, whether the value
is taken from the stack, comes of an expression or is given to a function that writes to the log. -/
namespace ScriptHost
open Lua (Frame HostFunction HostValue Machine Value World)

/-- Whether a value has a text: strings and numbers do. -/
def Lua.HostValue.HasText : HostValue → Prop
  | .string _ | .int _ | .float _ => True
  | _ => False

namespace Lua

section Values
variable (v : HostValue)

/-- The text of a value is what its string spells once scripts have made a string of it. -/
theorem HostValue.text?_eq : v.text? = v.coerced?.map Text.decodeLossy := by
  cases v with
  | int i => exact congrArg some (Text.decodeLossy_toUTF8 (Number.intText i)).symm
  | float x => exact congrArg some (Text.decodeLossy_toUTF8 (Number.floatText x)).symm
  | _ => rfl

theorem HostValue.isSome_text?_iff : v.text?.isSome ↔ v.HasText := by
  cases v with
  | string _ | int _ | float _ => exact iff_of_true rfl trivial
  | _ => exact iff_of_false Bool.noConfusion id

/-- An argument that has to be a text is taken as the text that its value has, or it is complained about. -/
theorem HostFunction.stringArgument_eq (function : String) (args : List HostValue) :
    stringArgument function args = match (args.headD .nil).text? with
      | some text => .ok text
      | none => .error (badArgument function (args.headD .nil).kindName) := by
  rw [HostValue.text?_eq, stringArgument]
  cases args.headD .nil <;> rfl

end Values

namespace Machine
variable (p : Provision)

/-- A machine that comes to another one after some steps. -/
def ComesTo (m m' : Machine) : Prop :=
  ∃ spent, ∀ fuel, run p (fuel + spent) m = run p fuel m'

/-- A call returns results to the frames that wait for them. -/
def Returns (m : Machine) (frames : List Frame) (w : World) (values : List Value) : Prop :=
  m.ComesTo p ⟨frames, .deliver w values⟩

/-- A call raises an error. The task that has raised it waits in front of the frames, and catches nothing. -/
def Raises (m : Machine) (frames : List Frame) (w : World) (raised : Raised) : Prop :=
  ∃ (worker : Worker) (next : List Value → World → Step) (levels : Nat),
    m.ComesTo p ⟨worker.wait (.results next) :: frames, .raise w levels raised⟩

variable {p}

theorem ComesTo.of_inl {m m' m'' : Machine} (h : m.advance p = .inl m') (h' : m'.ComesTo p m'') :
    m.ComesTo p m'' := by
  obtain ⟨spent, hrun⟩ := h'
  refine ⟨spent + 1, fun fuel => ?_⟩
  rw [← Nat.add_assoc, run_of_inl h, hrun]

theorem ComesTo.refl (m : Machine) : m.ComesTo p m := ⟨0, fun _ => rfl⟩

variable {w : World} {place : Nat} {f : HostFunction} (frames : List Frame) (isTail : Bool) (levels fuel : Nat)
  {base : Nat} {args : List Value}

/-- A function of the host starts to run. -/
theorem call_host (hf : w.functions[place]? = some (.host f)) (hroom : base + args.length + providedSlots ≤ slotLimit)
    (memory : World → MemoryReading) :
    call (provision memory) w frames isTail levels base (fuel + 1) (.function place) args =
      ⟨frames, .work { function := some place, isTail, levels, base } ((f.run args).start w)⟩ := by
  simp only [call, hf, if_neg (Nat.not_lt.mpr hroom)]
  rfl

/-- A task that is done returns its results. -/
theorem returns_of_done {worker : Worker} {values : List Value} :
    Returns p ⟨frames, .work worker (.done w values)⟩ frames w values :=
  .of_inl rfl (.refl _)

/-- A task that fails as the host wants it raises an error, and the error reaches the host as it is meant. -/
theorem raises_of_failAs {α : Type} (worker : Worker) (e : ScriptError) (next : α → World → Step) :
    ∃ u raised traceback, Raises p ⟨frames, .work worker (Task.failAs e next w)⟩ frames u raised ∧ u.events = w.events ∧
      u.arrivedError raised = (.ok (.callback traceback e), u) := by
  let frame := worker.wait (.results fun _ w => .done w [])
  let traceback := Text.decodeLossy (Running.traceback w (Running.ofFrames (frame :: frames)))
  let failure := w.addFailure (.error (.callback traceback e))
  have harrived : failure.2.arrivedError { value := .failure failure.1 } =
      (.ok (.callback traceback e), failure.2) := by
    simp [World.arrivedError, failure, World.addFailure]
  -- The task asks where it runs, and only then it fails.
  have hraises : ComesTo p ⟨frames, .work worker (Task.failAs e next w)⟩
      ⟨worker.wait (.results fun _ w => .fail w (.value (.failure failure.1))) :: frames,
        .raise failure.2 worker.levels { value := .failure failure.1 }⟩ :=
    .of_inl rfl (.of_inl rfl (.refl _))
  exact ⟨failure.2, _, traceback, ⟨worker, _, _, hraises⟩, rfl, harrived⟩

end Machine

/-- The memory after a text has been written to the log. -/
def World.traced (w : World) (text : String) : World := { w with events := .traced text :: w.events }

namespace HostFunction
variable {w u : World} {args : List Value} {values : List HostValue}

/-- A text is written to the log. -/
theorem start_trace_of_some (ha : w.receiveAll args = (.ok values, u)) {text : String}
    (ht : (values.headD .nil).text? = some text) :
    (run .trace args).start w = .done (u.traced text) [.bool true] := by
  have hs : stringArgument "Trace" values = .ok text := by rw [stringArgument_eq, ht]
  simp only [run, answer, hs, Task.start, bind, pure, Task.create, Task.arrive, Task.change, ha]
  rfl

/-- What has no text is complained about. -/
theorem start_trace_of_none (ha : w.receiveAll args = (.ok values, u)) (ht : (values.headD .nil).text? = none) :
    ∃ next : HostValue → World → Step, (run .trace args).start w =
      Task.failAs (badArgument "Trace" (values.headD .nil).kindName) next u := by
  have hs : stringArgument "Trace" values = .error (badArgument "Trace" (values.headD .nil).kindName) := by
    rw [stringArgument_eq, ht]
  simp only [run, answer, hs, Task.start, bind, pure, Task.create, Task.arrive, ha]
  exact ⟨_, rfl⟩

end HostFunction

end Lua

namespace Host
variable {h : Host}

/-- Whether a value on top of the stack is popped as such a text, or is refused and stays. -/
def PopsAs (h : Host) (v : HostValue) (text? : Option String) : Prop :=
  ∀ rest, (h.withStack (v :: rest)).answer .popString = match text? with
    | some text => (.ok (.text text), h.withStack rest)
    | none => (.error (.failed (.stackPrecondition
        s!"pop_string expected text on top of the stack, found {v.kindName}")), h.withStack (v :: rest))

/-- Whether every expression that gives a value to the host gives such a text. A function is refused before. The stack
is as it was. -/
def GivesAs (h : Host) (v : HostValue) (text? : Option String) : Prop :=
  ∀ expression values, h.verdict? (.text expression) = some (.results values) → values.headD .nil = v →
    (h.answer (.run (.text expression))).1 =
        (if v.isFunction then .error (.failed .functionResult) else .ok (.textOrNone text?)) ∧
      (h.answer (.run (.text expression))).2.stack = h.stack

/-- Whether a call of the function that writes to the log, with such a value in front of its arguments, writes such a
text and returns true, or raises an error that says what the value is. What is written is in the log of the host once
the interpreter is done. -/
def TracesAs (h : Host) (v : HostValue) (text? : Option String) : Prop :=
  ∀ (i : Lua.Interpreter) (w u : World) (place : Nat) (args : List Value) (values : List HostValue) (frames : List Frame) (isTail : Bool)
    (levels base fuel : Nat),
    w.functions[place]? = some (.host .trace) → base + args.length + Machine.providedSlots ≤ Machine.slotLimit →
    w.receiveAll args = (.ok values, u) → values.headD .nil = v →
    let called := Machine.call (Lua.provision i.reading) w frames isTail levels base (fuel + 1) (.function place) args
    match text? with
    | some text =>
      called.Returns (Lua.provision i.reading) frames (u.traced text) [.bool true] ∧
        (h.keeping { i with world := u.traced text }).log = .traced text :: (h.keeping { i with world := u }).log
    | none => ∃ u' raised traceback, called.Raises (Lua.provision i.reading) frames u' raised ∧
      (h.keeping { i with world := u' }).log = (h.keeping { i with world := u }).log ∧ u'.arrivedError raised = (.ok (.callback traceback (.runtime
        s!"bad argument #1 to 'Trace' (string expected, got {v.kindName})")), u')

theorem popsAs_text? (hi : h.interpreter.isSome) (v : HostValue) : h.PopsAs v v.text? := by
  intro rest
  obtain ⟨i, hi⟩ := Option.isSome_iff_exists.mp hi
  have hi' : (h.withStack (v :: rest)).interpreter = some i := hi
  rw [answer_popString_cons _ rfl, textOf?_eq _ hi']
  cases v.text? <;> rfl

theorem givesAs_text? (hi : h.interpreter.isSome) (v : HostValue) : h.GivesAs v v.text? := by
  intro expression values hv hhead
  obtain ⟨interpreter, log, hj, hsome⟩ := h.judged_frame (.text expression)
  obtain ⟨i, hi⟩ := Option.isSome_iff_exists.mp (hsome hi)
  have htext : (h.judged (.text expression)).textOf? v = v.text? := by
    rw [hj]
    exact textOf?_eq _ hi v
  have hstack : (h.judged (.text expression)).stack = h.stack := by rw [hj]
  rw [answer_run hv, conclude, hhead, accept, unlessFunction, htext, ← hstack]
  cases v.isFunction with
  | true => exact ⟨rfl, rfl⟩
  | false => cases v.text? <;> exact ⟨rfl, rfl⟩

/-- What scripts have written is on top of the log. -/
theorem log_keeping (i : Lua.Interpreter) : (h.keeping i).log = i.world.events ++ h.log := by
  rw [keeping, Lua.Interpreter.takeEvents, List.reverse_reverse]

theorem tracesAs_text? (v : HostValue) : h.TracesAs v v.text? := by
  intro i w u place args values frames isTail levels base fuel hf hroom ha hv
  subst hv
  rw [Machine.call_host frames isTail levels fuel hf hroom]
  cases ht : (values.headD .nil).text? with
  | some text =>
    rw [HostFunction.start_trace_of_some ha ht]
    refine ⟨Machine.returns_of_done frames, ?_⟩
    rw [log_keeping, log_keeping]
    rfl
  | none =>
    obtain ⟨next, hstart⟩ := HostFunction.start_trace_of_none ha ht
    rw [hstart]
    obtain ⟨u', raised, traceback, hraises, hevents, harrived⟩ := Machine.raises_of_failAs frames _ _ next
    refine ⟨u', raised, traceback, hraises, ?_, harrived⟩
    rw [log_keeping, log_keeping, hevents]

/-- A value has a text exactly if it is a string or a number, and then it has the same text for everybody: for who
takes it from the stack, for who asks for the text of an expression that gives it, and for the function that writes it
to the log. It is what the string spells that scripts make of the value. A value without a text stays on the stack, is
no text of an expression, and is complained about by the function. -/
theorem texts_agree (hi : h.interpreter.isSome) (v : HostValue) :
    (v.text?.isSome ↔ v.HasText) ∧ v.text? = v.coerced?.map Text.decodeLossy ∧
      h.PopsAs v v.text? ∧ h.GivesAs v v.text? ∧ h.TracesAs v v.text? :=
  ⟨v.isSome_text?_iff, v.text?_eq, popsAs_text? hi v, givesAs_text? hi v, tracesAs_text? v⟩

/-- A host that offers the function that writes to the log. -/
def tracing : Host := offering [("Trace", .trace)]

/-- A string that is not all text. -/
def mixedBytes : Text.Bytes := ⟨#[0x61, 0xff, 0, 0x62]⟩

/-- Whether a verdict is that a chunk gives such a string first. -/
private def givesString (s : Text.Bytes) : Verdict → Bool
  | .results (.string found :: _) => found == s
  | _ => false

private theorem exists_of_givesString {verdict? : Option Verdict} {s : Text.Bytes}
    (h : verdict?.any (givesString s)) :
    ∃ values, verdict? = some (.results values) ∧ values.headD .nil = .string s := by
  obtain ⟨verdict, rfl, hgives⟩ := (Option.any_eq_true _ _).mp h
  unfold givesString at hgives
  split at hgives
  · next found rest => exact ⟨_, rfl, congrArg HostValue.string (eq_of_beq hgives)⟩
  · cases hgives

/-- Whether the latest function in the memory of an interpreter is the one that writes to the log. -/
private def offersTrace (i : Lua.Interpreter) : Bool :=
  match i.world.functions[i.world.functions.size - 1]? with
  | some (.host .trace) => true
  | _ => false

/-- Bytes that are no text are replaced on all three ways. -/
theorem texts_agree_mixed :
    tracing.interpreter.isSome ∧
      (tracing.withStack [.string mixedBytes]).answer .popString =
        (.ok (.text "a\ufffd\x00b"), tracing.withStack []) ∧
      (∃ values, tracing.verdict? (.text "'a\\xff\\0b'") = some (.results values) ∧
        values.headD .nil = .string mixedBytes ∧
        (tracing.answer (.run (.text "'a\\xff\\0b'"))).1 = .ok (.textOrNone (some "a\ufffd\x00b"))) ∧
      ∃ i place, tracing.interpreter = some i ∧ i.world.functions[place]? = some (.host .trace) ∧
        i.world.receiveAll [.string mixedBytes] = (.ok [.string mixedBytes], i.world) ∧
        (Machine.call (Lua.provision i.reading) i.world [] false 0 0 1 (.function place) [.string mixedBytes]).Returns
          (Lua.provision i.reading) [] (i.world.traced "a\ufffd\x00b") [.bool true] := by
  have hi : tracing.interpreter.isSome := (Reachable.offering _).interpreter_isSome
  have ht : HostValue.text? (.string mixedBytes) = some "a\ufffd\x00b" := by decide +kernel
  obtain ⟨-, -, hpops, hgives, htraces⟩ := texts_agree hi (.string mixedBytes)
  rw [ht] at hpops hgives htraces
  have hstring : (tracing.verdict? (.text "'a\\xff\\0b'")).any (givesString mixedBytes) := by decide +kernel
  obtain ⟨values, hv, hhead⟩ := exists_of_givesString hstring
  obtain ⟨i, hi'⟩ := Option.isSome_iff_exists.mp hi
  have hoffers : tracing.interpreter.any offersTrace := by decide +kernel
  rw [hi', Option.any_some] at hoffers
  unfold offersTrace at hoffers
  split at hoffers
  · next hf =>
    have hreturns := htraces i i.world i.world _ [.string mixedBytes] [.string mixedBytes] [] false 0 0 0 hf (by decide)
      rfl rfl
    exact ⟨hi, hpops [], ⟨values, hv, hhead, (hgives _ values hv hhead).1⟩, i, _, hi', hf, rfl, hreturns.1⟩
  · cases hoffers

end Host
end ScriptHost
