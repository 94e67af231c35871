import ScriptHost.Lua.Value
/-! Formats of packed data: items one after the other, aligned if the format says so, with their bytes in the
order that it says. -/
namespace ScriptHost.Lua.Packing
open Text (Bytes)

inductive Item where
  | integer (isSigned : Bool) (size : Nat)
  | single
  | double
  /-- A string in a field of a fixed size. -/
  | fixed (size : Nat)
  /-- A string after its length, which has a size of its own. -/
  | counted (size : Nat)
  /-- A string before a zero. -/
  | terminated
  | padding
  /-- Padding as before an item with the given alignment. -/
  | align (alignment : Nat)
  | order (isLittle : Bool)
  | limit (alignment : Nat)
  | blank
  deriving DecidableEq, Repr

inductive Fault where
  | sizeOutOfLimits (size : Nat)
  | missingSize
  | invalidOption (option : UInt8)
  | invalidNext
  | unevenAlignment
  deriving DecidableEq, Repr

def largestInteger : Nat := 16

def defaultAlignment : Nat := 8

def largestSize : Nat := 2147483647

/-- A number at the start of a format; it ends before it gets too large. -/
def takeNumber : Option Nat → List UInt8 → Option Nat × List UInt8
  | n, [] => (n, [])
  | n, b :: rest =>
    if isDigit b && n.getD 0 ≤ (largestSize - 9) / 10 then
      takeNumber (some (n.getD 0 * 10 + (b.toNat - 48))) rest
    else (n, b :: rest)

def takeSize (default : Nat) (format : List UInt8) : Except Fault (Nat × List UInt8) :=
  let (n, rest) := takeNumber none format
  let size := n.getD default
  if 1 ≤ size && size ≤ largestInteger then .ok (size, rest) else .error (.sizeOutOfLimits size)

namespace Item

def size : Item → Nat
  | .integer _ size | .fixed size | .counted size => size
  | .single => 4
  | .double => 8
  | .padding => 1
  | _ => 0

/-- The alignment of an item; items of a fixed size have none. -/
def alignment : Item → Nat
  | .align n => n
  | .fixed _ => 0
  | item => item.size

def ofLetter (letter : UInt8) (rest : List UInt8) : Except Fault (Item × List UInt8) :=
  let sized (default : Nat) (make : Nat → Item) : Except Fault (Item × List UInt8) :=
    (takeSize default rest).map fun (size, rest) => (make size, rest)
  match Char.ofNat letter.toNat with
  | 'b' => .ok (.integer true 1, rest)
  | 'B' => .ok (.integer false 1, rest)
  | 'h' => .ok (.integer true 2, rest)
  | 'H' => .ok (.integer false 2, rest)
  | 'l' | 'j' => .ok (.integer true 8, rest)
  | 'L' | 'J' | 'T' => .ok (.integer false 8, rest)
  | 'f' => .ok (.single, rest)
  | 'n' | 'd' => .ok (.double, rest)
  | 'i' => sized 4 (.integer true)
  | 'I' => sized 4 (.integer false)
  | 's' => sized 8 .counted
  | 'c' =>
    match takeNumber none rest with
    | (some n, rest) => .ok (.fixed n, rest)
    | (none, _) => .error .missingSize
  | 'z' => .ok (.terminated, rest)
  | 'x' => .ok (.padding, rest)
  | ' ' => .ok (.blank, rest)
  | '<' | '=' => .ok (.order true, rest)
  | '>' => .ok (.order false, rest)
  | '!' => sized defaultAlignment .limit
  | 'X' => .ok (.align 0, rest)
  | _ => .error (.invalidOption letter)

def read (letter : UInt8) (rest : List UInt8) : Except Fault (Item × List UInt8) := do
  let (item, rest) ← ofLetter letter rest
  match item, rest with
  | .align _, [] => .error .invalidNext
  | .align _, next :: after =>
    let (next, rest) ← ofLetter next after
    if next.alignment == 0 then .error .invalidNext else return (.align next.alignment, rest)
  | _, _ => return (item, rest)

end Item

structure Mode where
  isLittle : Bool := true
  largestAlignment : Nat := 1

namespace Mode

def after (mode : Mode) : Item → Mode
  | .order isLittle => { mode with isLittle }
  | .limit largestAlignment => { mode with largestAlignment }
  | _ => mode

def gap (mode : Mode) (item : Item) (place : Nat) : Except Fault Nat :=
  if item.alignment ≤ 1 then .ok 0
  else
    let alignment := min item.alignment mode.largestAlignment
    if alignment != Nat.pow 2 alignment.log2 then .error .unevenAlignment
    else .ok ((alignment - place % alignment) % alignment)

/-- Bytes in the order of the mode, given with the lowest first. -/
def arrange (mode : Mode) (bytes : List UInt8) : Bytes :=
  ⟨(if mode.isLittle then bytes else bytes.reverse).toArray⟩

/-- An integer in so many bytes. Negative ones fill what is beyond their own size. -/
def encode (mode : Mode) (size : Nat) (i : Int) : Bytes :=
  mode.arrange ((List.range size).map fun k => (i / Nat.pow 256 k % 256).toNat.toUInt8)

def decode (mode : Mode) (bytes : Bytes) : Nat :=
  let bytes := bytes.data.toList
  (if mode.isLittle then bytes else bytes.reverse).foldr (fun b n => n * 256 + b.toNat) 0

/-- The integer of some bytes, if the bytes beyond its size only extend it. -/
def decodeInteger? (mode : Mode) (isSigned : Bool) (bytes : Bytes) : Option Int64 :=
  let n : Int := mode.decode bytes
  let bits := 8 * bytes.size
  if bits ≤ 64 then some (Int64.ofInt (if isSigned then n.bmod (Nat.pow 2 bits) else n))
  else
    let low : Int := (n % Nat.pow 2 64).bmod (Nat.pow 2 64)
    let whole := if isSigned && low < 0 then low % Nat.pow 2 bits else n % Nat.pow 2 64
    if whole == n then some (Int64.ofInt low) else none

end Mode
end ScriptHost.Lua.Packing
