import ScriptHost.Lua.Instruction
import ScriptHost.Lua.Memory
import ScriptHost.Lua.Place
/-! The machine that runs functions. Its state is the functions that wait and what happens at the innermost
place, where the memory is; a step changes them until a result or an error is left. -/
namespace ScriptHost.Lua
open Text (Bytes)

/-- A function or an instruction whose task is running. -/
structure Worker where
  function : Option Nat
  isTail : Bool := false
  levels : Nat
  base : Nat
  deriving Inhabited

def Worker.wait (worker : Worker) (waiting : Waiting) : Frame :=
  .task { function := worker.function, isTail := worker.isTail, levels := worker.levels,
          base := worker.base, waiting }

def TaskFrame.worker (t : TaskFrame) : Worker :=
  { function := t.function, isTail := t.isTail, levels := t.levels, base := t.base }

inductive Control where
  | script (world : World) (f : ScriptFrame)
  | work (worker : Worker) (step : Step)
  /-- Results come back to whoever waits for them. -/
  | deliver (world : World) (values : List Value)
  /-- An error arises, and whoever handles errors looks at it, so many calls deep. -/
  | raise (world : World) (levels : Nat) (raised : Raised)
  /-- An error goes to whoever catches it. -/
  | unwind (world : World) (raised : Raised)
  deriving Inhabited

def Control.world : Control → World
  | .script w _ | .deliver w _ | .raise w _ _ | .unwind w _ => w
  | .work _ step => step.world

/-- What the functions that the interpreter provides do, and what it says about memory. -/
structure Provision where
  builtin : Builtin → List Value → Task (List Value)
  host : HostFunction → List Value → Task (List Value)
  matching : Nat → Matching → List Value → Task (List Value)
  memory : World → MemoryReading

structure Machine where
  frames : List Frame
  control : Control
  deriving Inhabited

inductive Outcome where
  | finished (world : World) (values : List Value)
  | failed (world : World) (raised : Raised)
  /-- The run was longer than it may be. -/
  | exhausted (world : World)

namespace Machine

/-- The number of nested calls at which even the handling of errors ends. -/
def handlingLimit : Nat := 220

/-- The number of stack slots. -/
def slotLimit : Nat := 1000000

/-- The slots that functions outside of scripts get. -/
def providedSlots : Nat := 20

/-- The number of objects in a row that may be called in place of one another. -/
def calleeLimit : Nat := 1000

def fail (w : World) (frames : List Frame) (levels : Nat) (fault : Fault) : Machine :=
  ⟨frames, .raise w levels (Running.raise w (Running.ofFrames frames) fault)⟩

def enter (place : Nat) (proto : Proto) (captured : Array Nat) (args : List Value) (isTail : Bool)
    (levels base : Nat) : ScriptFrame :=
  let registers := ScriptFrame.fill (Array.replicate proto.registers Value.nil) 0 proto.params args
  { place, proto, captured, registers, isTail, levels
    extra := if proto.isVararg then args.drop proto.params else []
    base := if proto.isVararg then base + args.length + 1 else base }

/-- Calls a value. The frames are those that wait for the call, and the base is the first free slot. -/
def call (provision : Provision) (w : World) (frames : List Frame) (isTail : Bool) (levels base : Nat) :
    Nat → Value → List Value → Machine
  | 0, _, _ => fail w frames levels (.raised "stack overflow".toUTF8)
  | fuel + 1, f, args =>
    match f with
    | .function place =>
      let provided (t : Task (List Value)) : Machine :=
        if slotLimit < base + args.length + providedSlots then
          fail w frames levels (.raised "stack overflow".toUTF8)
        else ⟨frames, .work { function := some place, isTail, levels, base } (t.start w)⟩
      match w.functions[place]? with
      | some (.closure proto captured) =>
        if slotLimit < base + args.length + proto.registers then
          fail w frames levels (.raised "stack overflow".toUTF8)
        else ⟨frames, .script w (enter place proto captured args isTail levels base)⟩
      | some (.builtin b) => provided (provision.builtin b args)
      | some (.host h) => provided (provision.host h args)
      | some (.matching m) => provided (provision.matching place m args)
      | none => fail w frames levels (.notCallable f)
    | _ =>
      match w.handler f "__call" with
      | .nil => fail w frames levels (.notCallable f)
      | handler => call provision w frames isTail levels base fuel handler (f :: args)

/-- Calls a value from a place that counts as nested outside of scripts. -/
def callDeeper (provision : Provision) (w : World) (frames : List Frame) (levels base : Nat) (f : Value)
    (args : List Value) : Machine :=
  let levels := levels + 1
  if levels == levelLimit then fail w frames levels (.raised "C stack overflow".toUTF8)
  else if handlingLimit ≤ levels then
    ⟨frames, .unwind w { value := .ofText "error in error handling", kind := .handling }⟩
  else call provision w frames false levels base calleeLimit f args

def handlerOf : List Frame → Handler
  | [] => .none
  | .script _ :: rest => handlerOf rest
  | .task t :: rest =>
    match t.waiting with
    | .outcome .outer _ | .closing .outer _ _ _ => handlerOf rest
    | .outcome handler _ => handler
    | .closing handler _ _ _ => handler
    | _ => handlerOf rest

def resume (w : World) (frames : List Frame) (f : ScriptFrame) (values : List Value) : Machine :=
  match f.resume with
  | .into base count => ⟨frames, .script w (f.putResults base count values)⟩
  | .store dst => ⟨frames, .script w (f.put dst (values.headD .nil))⟩
  | .test dst negated => ⟨frames, .script w (f.put dst (.bool ((values.headD .nil).isTrue != negated)))⟩
  | .branch sense target =>
    ⟨frames, .script w (if (values.headD .nil).isTrue == sense then f.jump target else f.next)⟩
  | .ignore => ⟨frames, .script w f.next⟩
  | .again => ⟨frames, .script w f⟩
  | .pass => ⟨frames, .deliver w values⟩

/-- Closes the values that an error leaves behind, and then lets a task hear of the error. -/
def closeAfter (provision : Provision) (w : World) (frames : List Frame) (worker : Worker)
    (handler : Handler) (values : List Value) (raised : Raised)
    (next : Except Raised (List Value) → World → Step) : Machine :=
  match values with
  | [] => ⟨frames, .work worker (next (.error raised) w)⟩
  | v :: rest =>
    callDeeper provision w (worker.wait (.closing handler rest raised next) :: frames) worker.levels
      worker.base (w.handler v "__close") [v, raised.value]

def afterStep (provision : Provision) (frames : List Frame) (worker : Worker) (step : Step) : Machine :=
  match step with
  | .done w results => ⟨frames, .deliver w results⟩
  | .fail w fault =>
    fail w (worker.wait (.results fun _ w => .fail w fault) :: frames) worker.levels fault
  | .call w f args next =>
    callDeeper provision w (worker.wait (.results next) :: frames) worker.levels
      (worker.base + providedSlots) f args
  | .guarded w f args handler next =>
    callDeeper provision w (worker.wait (.outcome handler next) :: frames) worker.levels
      (worker.base + providedSlots) f args
  | .caught w fault next =>
    let goOn (outcome : Except Raised (List Value)) (w : World) : Step :=
      match outcome with
      | .ok values => .done w values
      | .error raised => next raised w
    fail w (worker.wait (.outcome .outer goOn) :: frames) worker.levels fault
  | .inspect w next =>
    let frame := worker.wait (.results fun _ w => .done w [])
    let traceback (_ : Unit) := Running.traceback w (Running.ofFrames (frame :: frames))
    ⟨frames, .work worker (next { traceback, levels := worker.levels } w)⟩
  | .measure w next => ⟨frames, .work worker (next (provision.memory w) w)⟩

def afterInstruction (provision : Provision) (frames : List Frame) (effect : Effect) : Machine :=
  match effect with
  | .next w f => ⟨frames, .script w f⟩
  | .work f step =>
    let base := f.base + f.proto.registers
    afterStep provision (.script f :: frames) { function := none, levels := f.levels, base } step
  | .call w f fn args deeper =>
    let base := match f.resume with
      | .into r _ => f.base + r + 1
      | _ => f.base + f.proto.registers
    let levels := f.levels
    if deeper then callDeeper provision w (.script f :: frames) levels base fn args
    else call provision w (.script f :: frames) false levels base calleeLimit fn args
  | .replace w f fn args =>
    match fn with
    | .function place =>
      match w.functions[place]? with
      | some (.closure _ _) => call provision w frames true f.levels f.base calleeLimit fn args
      | _ =>
        call provision w (.script { f with resume := .pass } :: frames) false f.levels
          (f.base + f.proto.registers) calleeLimit fn args
    | _ =>
      call provision w (.script { f with resume := .pass } :: frames) false f.levels
        (f.base + f.proto.registers) calleeLimit fn args
  | .leave w values => ⟨frames, .deliver w values⟩
  | .fail w f fault => fail w (.script f :: frames) f.levels fault

/-- Gives results to whoever waits for them; a result of the whole run if nobody does. -/
def deliver (provision : Provision) (w : World) (frames : List Frame) (values : List Value) :
    Machine ⊕ Outcome :=
  match frames with
  | [] => .inr (.finished w values)
  | .script f :: rest => .inl (resume w rest f values)
  | .task t :: rest =>
    match t.waiting with
    | .results next => .inl ⟨rest, .work t.worker (next values w)⟩
    | .outcome _ next => .inl ⟨rest, .work t.worker (next (.ok values) w)⟩
    | .closing handler others raised next =>
      .inl (closeAfter provision w rest t.worker handler others raised next)
    | .handled => .inl ⟨rest, .unwind w { value := values.headD .nil }⟩

def handle (provision : Provision) (w : World) (frames : List Frame) (levels : Nat) (raised : Raised) :
    Machine :=
  match raised.kind, handlerOf frames with
  | .ordinary, .function f =>
    let worker : Worker := { function := none, levels, base := 0 }
    callDeeper provision w (worker.wait .handled :: frames) levels 0 f [raised.value]
  | _, _ => ⟨frames, .unwind w raised⟩

/-- Takes an error to the innermost task that catches it. The values that are to be closed on the way come in
reverse. Without such a task the run fails. -/
def unwind (provision : Provision) (w : World) (raised : Raised) :
    List Value → List Frame → Machine ⊕ Outcome
  | _, [] => .inr (.failed w raised)
  | values, .script f :: rest =>
    unwind provision w raised ((f.toClose.map (·.2)).reverse ++ values) rest
  | values, .task t :: rest =>
    match t.waiting with
    | .outcome handler next =>
      .inl (closeAfter provision w rest t.worker handler values.reverse raised next)
    | .closing handler others _ next =>
      .inl (closeAfter provision w rest t.worker handler (values.reverse ++ others) raised next)
    | _ => unwind provision w raised values rest

def advance (provision : Provision) (m : Machine) : Machine ⊕ Outcome :=
  match m with
  | ⟨frames, control⟩ =>
    match control with
    | .script w f =>
      if h : f.pc < f.proto.code.size then
        .inl (afterInstruction provision frames (f.execute w f.proto.code[f.pc]))
      else .inl ⟨frames, .deliver w []⟩
    | .work worker step => .inl (afterStep provision frames worker step)
    | .deliver w values => deliver provision w frames values
    | .raise w levels raised => .inl (handle provision w frames levels raised)
    | .unwind w raised => unwind provision w raised [] frames

def run (provision : Provision) : Nat → Machine → Outcome
  | 0, m => .exhausted m.control.world
  | fuel + 1, m =>
    match m.advance provision with
    | .inl m => run provision fuel m
    | .inr outcome => outcome

/-- The machine at the start of a task of the host, so many calls deep. The handler looks at its errors. -/
def start (w : World) (levels : Nat) (handler : Handler) (t : Task (List Value)) : Machine :=
  let worker : Worker := { function := none, levels, base := 0 }
  let finish (outcome : Except Raised (List Value)) (w : World) : Step :=
    match outcome with
    | .ok values => .done w values
    | .error raised => .fail w (.reraised raised)
  ⟨[worker.wait (.outcome handler finish)], .work worker (t.start w)⟩

end Machine
end ScriptHost.Lua
