import ScriptHost.Lua.Lexer
import ScriptHost.Lua.World
/-! How much memory things take, as far as scripts are told. The amounts are estimates. Nothing is ever reclaimed, so that
finalizers and modes of tables, which are about that, do nothing. -/
namespace ScriptHost.Lua
open Text (Bytes)

/-- What some things weigh together. -/
def total {α : Type} (weight : α → Nat) (things : Array α) : Nat :=
  things.toList.foldl (fun sum a => sum + weight a) 0

/-- The memory of a string in bytes, with its header. -/
def stringWeight (s : Bytes) : Nat := 25 + s.size

namespace Value

/-- What a value takes besides its slot, if it is not an object that counts by itself. -/
def weight : Value → Nat
  | .string s => stringWeight s
  | _ => 0

end Value

namespace Key

def weight : Key → Nat
  | .string s => stringWeight s
  | _ => 0

end Key

namespace Table

def weight (t : Table) : Nat :=
  56 + 16 * t.list.size + 24 * t.capacity + total Value.weight t.list +
    total (fun (key, v) => key.weight + v.weight) t.nodes

end Table

namespace World

def startWeight : Nat := 20000

def occupied (w : World) : Nat :=
  startWeight + total Table.weight w.tables + 56 * w.functions.size +
    total (fun v => 40 + v.weight) w.cells + 56 * w.failures.size

end World

namespace Token

def weight : Token → Nat
  | .name s | .string s | .invalid s => stringWeight s
  | _ => 0

end Token
end ScriptHost.Lua
