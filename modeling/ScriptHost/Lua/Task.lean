import ScriptHost.Lua.World
/-! Work on the memory of an interpreter that can stop to call functions. What a task does between two calls is
one step; the machine makes the calls and goes on with their results. -/
namespace ScriptHost.Lua
open Text (Bytes)

/-- What an error is when it has reached a place that handles errors. -/
inductive RaisedKind where
  | ordinary
  | memory
  /-- Errors kept coming from the handling of errors. -/
  | handling
  deriving DecidableEq, Repr, Inhabited

structure Raised where
  value : Value
  kind : RaisedKind := .ordinary
  deriving Inhabited

/-- Why a task fails, before it is known where it runs. -/
inductive Fault where
  /-- The error is a value. -/
  | value (v : Value)
  /-- A message with the place of the running function, if that is part of a script. -/
  | raised (message : Bytes)
  /-- A message with the place of the function so many calls up, if that is part of a script. -/
  | located (level : Nat) (message : Bytes)
  /-- An argument of the running function is not as it has to be. -/
  | argument (index : Nat) (message : Bytes)
  /-- Something was done with a value that cannot be done with it; the value is an operand of the running
  instruction or something else. -/
  | unsuitable (action : String) (v : Value) (operand : Option Nat)
  /-- A number that should have an integral value has none. -/
  | notIntegral (operand : Option Nat)
  /-- A value was called that cannot be called. -/
  | notCallable (v : Value)
  /-- There is not enough memory. -/
  | memory
  /-- The error has been raised before. -/
  | reraised (raised : Raised)
  deriving Inhabited

/-- Who looks at an error where it arises. -/
inductive Handler where
  | none
  | function (f : Value)
  /-- Whoever looks at the errors of the caller. -/
  | outer
  deriving Inhabited

structure Surroundings where
  /-- The functions that are running, as a text. -/
  traceback : Unit → Bytes
  /-- The number of calls that are nested outside of scripts. -/
  levels : Nat

structure MemoryReading where
  /-- The memory in use, in bytes. -/
  bytes : Nat
  /-- Whether a step of its reclaiming ends a round. -/
  endsRound : Bool := true

/-- What a task comes to: its results, a failure, or a call or a question after which it goes on. -/
inductive Step where
  | done (world : World) (results : List Value)
  | fail (world : World) (fault : Fault)
  | call (world : World) (f : Value) (args : List Value) (next : List Value → World → Step)
  /-- A call whose errors come back to the task. -/
  | guarded (world : World) (f : Value) (args : List Value) (handler : Handler)
      (next : Except Raised (List Value) → World → Step)
  /-- An error that comes back to the task once whoever handles errors has looked at it. -/
  | caught (world : World) (fault : Fault) (next : Raised → World → Step)
  | inspect (world : World) (next : Surroundings → World → Step)
  | measure (world : World) (next : MemoryReading → World → Step)

def Step.world : Step → World
  | .done w _ | .fail w _ | .call w _ _ _ | .guarded w _ _ _ _ | .caught w _ _ | .inspect w _ | .measure w _ => w

/-- The number of nested calls outside of scripts at which there is an error. -/
def levelLimit : Nat := 200

def Task (α : Type) : Type := (α → World → Step) → World → Step

namespace Task

instance : Monad Task where
  pure a := fun k w => k a w
  bind t f := fun k w => t (fun a w => f a k w) w

@[inline] def read {α : Type} (f : World → α) : Task α := fun k w => k (f w) w

@[inline] def change (f : World → World) : Task Unit := fun k w => k () (f w)

@[inline] def create {α : Type} (f : World → α × World) : Task α := fun k w =>
  match f w with
  | (a, w) => k a w

@[inline] def fail {α : Type} (fault : Fault) : Task α := fun _ w => .fail w fault

def failHere {α : Type} (message : String) : Task α := fail (.raised message.toUTF8)

def failCaller {α : Type} (message : String) : Task α := fail (.located 1 message.toUTF8)

def call (f : Value) (args : List Value) : Task (List Value) := fun k w => .call w f args k

def callGuarded (f : Value) (args : List Value) (handler : Handler) :
    Task (Except Raised (List Value)) := fun k w => .guarded w f args handler k

def catchFault (fault : Fault) : Task Raised := fun k w => .caught w fault k

def surroundings : Task Surroundings := fun k w => .inspect w k

def measure : Task MemoryReading := fun k w => .measure w k

def callFirst (f : Value) (args : List Value) : Task Value := do
  return (← call f args).headD .nil

def start (t : Task (List Value)) (w : World) : Step := t (fun results w => .done w results) w

end Task
end ScriptHost.Lua
