import ScriptHost.Lua.Library.Argument
/-! The texts that values are shown as. -/
namespace ScriptHost.Lua
open Text (Bytes)

def addressText (address : Nat) : String :=
  if address == 0 then "(nil)" else "0x" ++ Numeral.digits 16 address

/-- The address of a value that has one; zero for the others. -/
def Value.address : Value → Nat
  | .pointer a => a.toNat
  | .table place => 0x5581d0000000 + 64 * place
  | .function place => 0x5581a0000000 + 64 * place
  | .failure place => 0x5581b0000000 + 64 * place
  | _ => 0

/-- The text of a value, without its handler. -/
def Value.plainText (w : World) (v : Value) : Bytes :=
  match v with
  | .nil => "nil".toUTF8
  | .bool b => (if b then "true" else "false").toUTF8
  | _ =>
    match v.toBytes? with
    | some s => s
    | none =>
      let name := match w.handler v "__name" with
        | .string name => untilNul name
        | _ => v.typeName.toUTF8
      name ++ (": " ++ addressText v.address).toUTF8

namespace Task

def describe (v : Value) : Task Bytes := do
  match ← read (·.handler v "__tostring") with
  | .nil => read v.plainText
  | handler =>
    match (← callFirst handler [v]).toBytes? with
    | some s => return s
    | none => failCaller "'__tostring' must return a string"

end Task
end ScriptHost.Lua
