import ScriptHost.Lua.Operation
/-! Functions that are running: calls of script functions with their registers, and tasks that wait for calls
they have made. -/
namespace ScriptHost.Lua
open Text (Bytes)

/-- What becomes of results that come back to a script function. -/
inductive Resume where
  /-- They go into registers. -/
  | into (base : Nat) (count : Option Nat)
  | store (dst : Nat)
  /-- The truth of the first goes into a register. -/
  | test (dst : Nat) (negated : Bool)
  /-- The truth of the first decides on a jump. -/
  | branch (sense : Bool) (target : Nat)
  | ignore
  /-- The instruction runs again. -/
  | again
  /-- They are the results of the function itself. -/
  | pass
  deriving Inhabited

structure ScriptFrame where
  /-- The place of the function in memory. -/
  place : Nat
  proto : Proto
  captured : Array Nat
  /-- The instruction that is running. -/
  pc : Nat := 0
  registers : Array Value
  /-- The captured variables that live in registers. -/
  boxes : List (Nat × Nat) := []
  /-- The arguments past the parameters. -/
  extra : List Value := []
  /-- The register from which on values are open, and those values. -/
  openFrom : Nat := 0
  openValues : List Value := []
  /-- The values that are closed when their registers go out of scope, the latest first. -/
  toClose : List (Nat × Value) := []
  /-- The results, while values are being closed. -/
  returning : Option (List Value) := none
  resume : Resume := .ignore
  /-- Whether the call replaced another one. -/
  isTail : Bool
  /-- The number of calls nested outside of scripts. -/
  levels : Nat
  /-- The number of stack slots below the registers. -/
  base : Nat
  deriving Inhabited

inductive Waiting where
  /-- The results of a call. -/
  | results (next : List Value → World → Step)
  /-- The results or the error of a call. -/
  | outcome (handler : Handler) (next : Except Raised (List Value) → World → Step)
  /-- The closing of values after an error, before the task hears of it. -/
  | closing (handler : Handler) (rest : List Value) (raised : Raised)
      (next : Except Raised (List Value) → World → Step)
  /-- What a handler makes of an error. -/
  | handled
  deriving Inhabited

structure TaskFrame where
  /-- The place of the function that the task belongs to; none if it works for an instruction of the function
  below it. -/
  function : Option Nat
  isTail : Bool
  levels : Nat
  base : Nat
  waiting : Waiting
  deriving Inhabited

inductive Frame where
  | script (f : ScriptFrame)
  | task (t : TaskFrame)
  deriving Inhabited

namespace ScriptFrame

@[inline] def get (f : ScriptFrame) (w : World) : Source → Value
  | .reg r => f.registers[r]?.getD .nil
  | .const c => .ofConstant c
  | .box r => w.cells[(f.boxes.lookup r).getD 0]?.getD .nil
  | .upvalue place => w.cells[f.captured[place]?.getD 0]?.getD .nil

@[inline] def register (f : ScriptFrame) (r : Nat) : Value := f.registers[r]?.getD .nil

@[inline] def next (f : ScriptFrame) : ScriptFrame := { f with pc := f.pc + 1 }

@[inline] def jump (f : ScriptFrame) (target : Nat) : ScriptFrame := { f with pc := target }

@[inline] def put (f : ScriptFrame) (r : Nat) (v : Value) : ScriptFrame :=
  { f with registers := putAt f.registers r v, pc := f.pc + 1 }

/-- Puts values into registers from one on. -/
def fill (registers : Array Value) (from_ : Nat) : Nat → List Value → Array Value
  | 0, _ => registers
  | count + 1, values =>
    fill (putAt registers from_ (values.headD .nil)) (from_ + 1) count values.tail

/-- Puts results where a call wants them: exactly so many, or all of them as open values. -/
def putResults (f : ScriptFrame) (base : Nat) (count : Option Nat) (values : List Value) : ScriptFrame :=
  match count with
  | some n => { f with registers := fill f.registers base n values, pc := f.pc + 1 }
  | none => { f with openFrom := base, openValues := values, pc := f.pc + 1 }

/-- The values of so many registers from one on, or up to the end of the open values. -/
def collect (f : ScriptFrame) (first : Nat) (count : Option Nat) : List Value :=
  match count with
  | some n => (f.registers.extract first (first + n)).toList
  | none => (f.registers.extract first f.openFrom).toList ++ f.openValues

end ScriptFrame
end ScriptHost.Lua
