import ScriptHost.Lua.ScriptError
import ScriptHost.Lua.Syntax
/-! Functions that the host offers to scripts, by what they do. -/
namespace ScriptHost.Lua
open Text (Bytes)

inductive ClockPart where
  | month | dayOfMonth | hour | minute | second | year
  /-- Days since Sunday. -/
  | weekday
  /-- Days since the first of January. -/
  | dayOfYear
  deriving DecidableEq, Repr, Inhabited

structure ClockReading where
  year : Nat := 2024
  month : Nat := 1
  dayOfMonth : Nat := 1
  hour : Nat := 0
  minute : Nat := 0
  second : Nat := 0
  weekday : Nat := 1
  dayOfYear : Nat := 0
  deriving DecidableEq, Repr, Inhabited

def ClockReading.part (reading : ClockReading) : ClockPart → Nat
  | .month => reading.month
  | .dayOfMonth => reading.dayOfMonth
  | .hour => reading.hour
  | .minute => reading.minute
  | .second => reading.second
  | .year => reading.year
  | .weekday => reading.weekday
  | .dayOfYear => reading.dayOfYear

inductive HostFunction where
  | constant (c : Constant)
  | pointer (address : UInt64)
  /-- Gives its first argument back. -/
  | first
  /-- Counts its arguments. -/
  | count
  /-- Names the kind of its first argument. -/
  | kindOfFirst
  /-- Makes a table of its arguments. -/
  | list
  /-- Calls its first argument, which has to be a function, and gives back the first result. -/
  | callFirst
  | raise (e : ScriptError)
  /-- Fails with its first argument, which has to be a string, as the text. -/
  | raiseFirst
  | panic (payload : PanicPayload)
  /-- Panics with a text that counts its arguments. -/
  | panicCounting
  | clock (part : ClockPart)
  /-- Writes its first argument to the log. -/
  | trace
  deriving Inhabited

end ScriptHost.Lua
